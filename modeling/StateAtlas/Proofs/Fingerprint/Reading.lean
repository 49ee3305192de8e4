import Mathlib.Data.List.Forall2
import StateAtlas.Fingerprint.Freeze

set_option autoImplicit false

/-!
# Reading a fingerprint

A fingerprint is compared by its tokens, a list without any nesting, and it shows variables in order
of their names. Nothing is lost by that: the tokens of a picture do not begin those of another one,
so that a tuple can be taken apart again, and the order of the names does not touch what is bound
to them. Truth values, integers and texts are pictured together with their types, and in full.

## Main definitions

* `StateAtlas.Value.isPlain` — a value that is pictured in full.

## Main results

* `StateAtlas.Frozen.map_key_of_tuple` — the tokens of a tuple determine those of its items.
* `StateAtlas.map_key_of_freezeFields` — the picture of named pictures determines each of them.
* `StateAtlas.Value.eq_of_key` — plain values with equal pictures are equal.
* `StateAtlas.Scene.eq_of_freezeNames` — variables that differ in plain values at most are
  determined by their picture.
-/

namespace StateAtlas

/-! ## Tokens -/

namespace Frozen

/-- The tokens of a constant are one token, which does not open a tuple. -/
lemma tokens_constant {f : Frozen} (hf : ∀ items, f ≠ .tuple items) :
    ∃ t, (∀ n, t ≠ .opening n) ∧ ∀ rest, tokens f rest = t :: rest := by
  cases f with
  | tuple items => exact absurd rfl (hf items)
  | float x =>
    refine ⟨Token.ofFloat x, fun n => ?_, fun _ => rfl⟩
    unfold Token.ofFloat
    split <;> simp
  | complex re im =>
    refine ⟨Token.ofComplex re im, fun n => ?_, fun _ => rfl⟩
    unfold Token.ofComplex Token.ofFloat
    split
    · split <;> simp
    · simp
  | _ => exact ⟨_, by simp, fun _ => rfl⟩

mutual

/-- The tokens of a picture come before the others. -/
lemma tokens_eq (f : Frozen) (rest : List Token) : tokens f rest = f.key ++ rest := by
  cases f with
  | tuple items => simp [key, tokens, tokensOf_eq items rest, tokensOf_eq items []]
  | _ => rfl

/-- The tokens of pictures are those of one picture after the other. -/
lemma tokensOf_eq (fs : List Frozen) (rest : List Token) :
    tokensOf fs rest = (fs.map key).flatten ++ rest := by
  cases fs with
  | nil => rfl
  | cons f fs => simp [tokensOf, tokens_eq f, tokensOf_eq fs rest]

end

/-- The token of a constant is told from what comes after it. -/
lemma eq_of_tokens_constant {f g : Frozen} {r s : List Token} (hf : ∀ items, f ≠ .tuple items)
    (h : tokens f r = tokens g s) : f.key = g.key ∧ r = s := by
  obtain ⟨t, ht, hf⟩ := tokens_constant hf
  rw [hf] at h
  by_cases hg : ∃ items, g = .tuple items
  · obtain ⟨items, rfl⟩ := hg
    exact absurd (List.cons.inj h).1 (ht _)
  · obtain ⟨u, -, hg⟩ := tokens_constant (not_exists.mp hg)
    rw [hg] at h
    obtain ⟨rfl, rfl⟩ := List.cons.inj h
    exact ⟨(hf []).trans (hg []).symm, rfl⟩

mutual

/-- The tokens of a picture are told from what comes after them. -/
lemma eq_of_tokens (f g : Frozen) {r s : List Token} (h : tokens f r = tokens g s) :
    f.key = g.key ∧ r = s := by
  cases f with
  | tuple fs =>
    cases g with
    | tuple gs =>
      simp only [tokens, List.cons.injEq, Token.opening.injEq] at h
      obtain ⟨hk, rfl⟩ := eq_of_tokensOf fs gs h.1 h.2
      simp only [key, tokens, tokensOf_eq, hk, h.1, and_self]
    | _ =>
      obtain ⟨hk, hr⟩ := eq_of_tokens_constant (by simp) h.symm
      exact ⟨hk.symm, hr.symm⟩
  | _ => exact eq_of_tokens_constant (by simp) h

/-- The tokens of as many pictures are told from each other and from what comes after them. -/
lemma eq_of_tokensOf (fs gs : List Frozen) {r s : List Token} (hlen : fs.length = gs.length)
    (h : tokensOf fs r = tokensOf gs s) : fs.map key = gs.map key ∧ r = s := by
  cases fs with
  | nil =>
    obtain rfl : gs = [] := List.eq_nil_of_length_eq_zero hlen.symm
    exact ⟨rfl, h⟩
  | cons f fs =>
    obtain ⟨g, gs, rfl⟩ := List.exists_cons_of_length_eq_add_one hlen.symm
    obtain ⟨hk, h⟩ := eq_of_tokens f g h
    obtain ⟨hks, hr⟩ := eq_of_tokensOf fs gs (by simpa using hlen) h
    exact ⟨by simp [hk, hks], hr⟩

end

/-- The tokens of a tuple determine those of its items. -/
theorem map_key_of_tuple {fs gs : List Frozen} (h : key (.tuple fs) = key (.tuple gs)) :
    fs.map key = gs.map key := by
  simp only [key, tokens, List.cons.injEq, Token.opening.injEq] at h
  exact (eq_of_tokensOf fs gs h.1 h.2).1

/-- Tuples have the same tokens exactly if their items have. -/
lemma key_tuple_eq_iff {fs gs : List Frozen} :
    key (.tuple fs) = key (.tuple gs) ↔ fs.map key = gs.map key := by
  refine ⟨map_key_of_tuple, fun h => ?_⟩
  have hlen : fs.length = gs.length := by simpa using congrArg List.length h
  simp only [key, tokens, tokensOf_eq, h, hlen]

/-- What is compared across executions tells the tokens. -/
lemma key_of_keyIn {f g : Frozen} {m n : Nat} (h : f.keyIn m = g.keyIn n) : f.key = g.key := by
  have hmark : ∀ (n : Nat) (t : Token), (t.mark n).token = t := by
    intro n t
    unfold Token.mark
    split <;> rfl
  have hkey : ∀ (f : Frozen) (n : Nat), (f.keyIn n).map Mark.token = f.key := fun f n => by
    rw [keyIn, List.map_map]
    exact (List.map_congr_left fun t _ => hmark n t).trans (List.map_id _)
  rw [← hkey f m, h, hkey]

/-- A picture that is compared has been made. -/
lemma keyOrFault_eq_ok {f : Frozen} {n : Nat} {k : List Mark} (h : f.keyOrFault n = .ok k) :
    f.fault? = Option.none ∧ f.keyIn n = k := by
  rw [keyOrFault] at h
  split at h
  · cases h
  · rename_i hf
    exact ⟨hf, Except.ok.inj h⟩

/-- A text is pictured in full. -/
lemma eq_of_key_str {s t : String} (h : key (.str s) = key (.str t)) : s = t := by
  simpa [key, tokens] using h

/-- An integer is pictured in full. -/
lemma eq_of_key_int {i j : Int} (h : key (.int i) = key (.int j)) : i = j := by
  simpa [key, tokens] using h

/-- The tokens of a text and a picture determine both. -/
lemma eq_of_key_pair {s t : String} {f g : Frozen}
    (h : key (.tuple [.str s, f]) = key (.tuple [.str t, g])) : s = t ∧ f.key = g.key := by
  have hpair := map_key_of_tuple h
  simp only [List.map_cons, List.map_nil, List.cons.injEq, and_true] at hpair
  exact ⟨eq_of_key_str hpair.1, hpair.2⟩

end Frozen

/-! ## Named pictures -/

section Names

variable {α : Type}

/-- Entries put in order of their names. -/
abbrev byName (es : List (String × α)) : List (String × α) :=
  es.mergeSort fun a b => a.1 ≤ b.1

/-- Entries of one name stay in order when entries are put in order of their names. -/
lemma filter_byName (name : String) (es : List (String × α)) :
    ((byName es).filter fun e => e.1 = name) = es.filter fun e => e.1 = name := by
  have htrans : ∀ a b c : String × α, decide (a.1 ≤ b.1) = true → decide (b.1 ≤ c.1) = true →
      decide (a.1 ≤ c.1) = true := by
    intro a b c hab hbc
    exact decide_eq_true (String.le_trans (of_decide_eq_true hab) (of_decide_eq_true hbc))
  have htotal : ∀ a b : String × α, (decide (a.1 ≤ b.1) || decide (b.1 ≤ a.1)) = true := by
    intro a b
    simpa using String.le_total a.1 b.1
  have hle : (es.filter fun e => e.1 = name).Pairwise fun a b => decide (a.1 ≤ b.1) = true := by
    refine List.Pairwise.imp_of_mem ?_ (List.pairwise_of_forall fun _ _ => trivial)
    intro a b ha hb _
    have hab : a.1 = b.1 := by
      rw [of_decide_eq_true (List.mem_filter.mp ha).2, of_decide_eq_true (List.mem_filter.mp hb).2]
    exact decide_eq_true (hab ▸ String.le_refl _)
  have hsub := (List.sublist_mergeSort htrans htotal hle List.filter_sublist).filter fun e =>
    decide (e.1 = name)
  rw [List.filter_filter] at hsub
  simp only [Bool.and_self] at hsub
  refine (hsub.eq_of_length ?_).symm
  exact ((List.mergeSort_perm es _).filter _).length_eq.symm

/-- Entries under the same names are the same if those of each name are. -/
lemma eq_of_filter {es es' : List (String × α)} (hnames : es.map Prod.fst = es'.map Prod.fst)
    (h : ∀ name : String, (es.filter fun e => e.1 = name) = es'.filter fun e => e.1 = name) :
    es = es' := by
  induction es generalizing es' with
  | nil => exact (List.map_eq_nil_iff.mp hnames.symm).symm
  | cons e es ih =>
    obtain ⟨e', es', rfl⟩ := List.exists_cons_of_ne_nil (l := es') (by rintro rfl; simp at hnames)
    simp only [List.map_cons, List.cons.injEq] at hnames
    obtain ⟨hname, hnames⟩ := hnames
    obtain rfl : e = e' := by
      have := h e.1
      simp only [List.filter_cons, hname, decide_true, ite_true] at this
      exact (List.cons.inj this).1
    rw [ih hnames fun name => ?_]
    have := h name
    simp only [List.filter_cons] at this
    split at this
    · exact (List.cons.inj this).2
    · exact this

/-- The picture of named pictures shows each of them, in order of the names. -/
lemma freezeFields_key_eq_iff_byName {es es' : List (String × Frozen)} :
    (freezeFields es).key = (freezeFields es').key ↔
      byName (es.map (Prod.map id Frozen.key)) = byName (es'.map (Prod.map id Frozen.key)) := by
  have hsorted : ∀ es : List (String × Frozen), (byName es).map (Prod.map id Frozen.key) =
      byName (es.map (Prod.map id Frozen.key)) :=
    fun es => List.map_mergeSort fun _ _ _ _ => rfl
  rw [← hsorted, ← hsorted, freezeFields, freezeFields, Frozen.key_tuple_eq_iff, List.map_map,
    List.map_map]
  constructor <;> intro h <;>
    rw [← List.forall₂_eq_eq_eq, List.forall₂_map_left_iff, List.forall₂_map_right_iff] at h ⊢
  · refine h.imp fun e e' he => ?_
    obtain ⟨hname, hkey⟩ := Frozen.eq_of_key_pair he
    exact Prod.ext hname hkey
  · refine h.imp fun e e' he => ?_
    obtain ⟨hname, hkey⟩ := Prod.mk.inj he
    have hname : e.1 = e'.1 := hname
    exact Frozen.key_tuple_eq_iff.mpr (by simp [hname, hkey])

/-- The picture of named pictures determines each of them.

**Proof sketch.** It shows them in order of their names, which are known. Those of one name have
kept their order. -/
theorem map_key_of_freezeFields {es es' : List (String × Frozen)}
    (hnames : es.map Prod.fst = es'.map Prod.fst)
    (h : (freezeFields es).key = (freezeFields es').key) :
    es.map (Prod.map id Frozen.key) = es'.map (Prod.map id Frozen.key) := by
  refine eq_of_filter ?_ fun name => ?_
  · simpa [Function.comp_def] using hnames
  rw [← filter_byName name, freezeFields_key_eq_iff_byName.mp h, filter_byName name]

end Names

/-! ## Plain values -/

namespace Value

/-- A value that is pictured in full: nothing, a truth value, an integer, or a text. -/
def isPlain : Value → Bool
  | .none | .bool _ | .int _ | .str _ | .bytes _ => true
  | _ => false

/-- Plain values with equal pictures are equal. -/
theorem eq_of_key {v w : Value} (hv : v.isPlain = true) (hw : w.isPlain = true) {h h' : Heap}
    {owner owner' : Value} {room room' : Nat}
    (hk : (freezeWithin h owner room v).key = (freezeWithin h' owner' room' w).key) : v = w := by
  rw [freezeWithin.eq_def, freezeWithin.eq_def] at hk
  cases v <;> simp only [isPlain, Bool.false_eq_true] at hv
  all_goals cases w <;> simp only [isPlain, Bool.false_eq_true] at hw
  all_goals
    simp [constant?, content, ownText?, Heap.typeNameOf, Frozen.key, Frozen.tokens,
      Frozen.tokensOf] at hk
  case bool.bool b c => cases b <;> cases c <;> simp at hk ⊢
  all_goals simp [hk]

/-- The same value, or plain values. -/
def Alike (v w : Value) : Prop := v = w ∨ v.isPlain = true ∧ w.isPlain = true

end Value

/-- Values under the same names that differ in plain values at most are determined by their
picture, except for those under hidden names.

**Proof sketch.** The pictures of the values are determined, and a plain value by its picture. -/
theorem Scene.eq_of_freezeNames {s s' : Scene} {owner owner' : Value}
    {es es' : List (String × Value)}
    (h : List.Forall₂ (fun e e' => e.1 = e'.1 ∧ Value.Alike e.2 e'.2) es es')
    (hk : (s.freezeNames owner es).key = (s'.freezeNames owner' es').key) :
    (es.filter fun e => !isHiddenName e.1) = es'.filter fun e => !isHiddenName e.1 := by
  have hshown := List.rel_filter (p := fun e => !isHiddenName e.1)
    (q := fun e => !isHiddenName e.1) (fun e e' he => by simp [he.1]) h
  have hnames : (es.filter fun e => !isHiddenName e.1).map Prod.fst =
      (es'.filter fun e => !isHiddenName e.1).map Prod.fst := by
    rw [← List.forall₂_eq_eq_eq, List.forall₂_map_left_iff, List.forall₂_map_right_iff]
    exact hshown.imp fun _ _ he => he.1
  have hkeys := map_key_of_freezeFields (by simpa [Function.comp_def] using hnames) hk
  rw [List.map_map, List.map_map, ← List.forall₂_eq_eq_eq, List.forall₂_map_left_iff,
    List.forall₂_map_right_iff] at hkeys
  rw [← List.forall₂_eq_eq_eq]
  refine List.Forall₂.mp (fun e e' he hkey => ?_) hshown hkeys
  rcases he.2 with heq | ⟨hv, hw⟩
  · exact Prod.ext he.1 heq
  · exact Prod.ext he.1 (Value.eq_of_key hv hw (Prod.ext_iff.mp hkey).2)

end StateAtlas
