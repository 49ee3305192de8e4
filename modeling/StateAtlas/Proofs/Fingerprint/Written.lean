import Mathlib.Data.List.Nodup
import StateAtlas.Proofs.Fingerprint.Reading
import StateAtlas.Proofs.Label.Lab
import StateAtlas.Proofs.Text.Quoted

set_option autoImplicit false

/-!
# The written form of a picture

The members of a set are pictured in order of their written forms. Different pictures are written
differently, as long as they show no fractions and no integer that is too long: a text ends at its
closing quote, a tuple at the bracket that belongs to it, and anything else at the comma or the
bracket behind it. So the order is one of the pictures themselves, and whatever the order in which
the members were met, the picture of the set is the same.

## Main definitions

* `StateAtlas.Frozen.Legible` — pictures that can be written and read back.
* `StateAtlas.Frozen.text` — the written form of a picture that has one.

## Main results

* `StateAtlas.Frozen.Legible.told` — the written form of a picture is told from what follows it.
* `StateAtlas.Frozen.Legible.eq_of_text` — pictures with equal written forms are equal.
* `StateAtlas.arrangeFrozen_of_legible` — the arrangement of legible pictures.
* `StateAtlas.arrangeFrozen_eq_of_perm` — the arrangement of pictures does not depend on the order
  in which they are given.
-/

namespace StateAtlas

namespace Frozen

/-! ## Legible pictures -/

/-- A picture without fractions and without an integer that is too long to be written. -/
inductive Legible : Frozen → Prop
  | none : Legible .none
  | bool (b : Bool) : Legible (.bool b)
  | int {i : Int} (hi : (integerText? i).isSome = true) : Legible (.int i)
  | str (s : String) : Legible (.str s)
  | bytes (bs : List UInt8) : Legible (.bytes bs)
  | tuple {items : List Frozen} (hitems : ∀ f ∈ items, Legible f) : Legible (.tuple items)

/-- The written form of a picture that has one. -/
def text (f : Frozen) : String := f.text?.getD ""

variable {f g : Frozen} {fs gs : List Frozen} {r s : List Char}

/-- What can be written one by one can be written one after the other. -/
lemma quotedItems?_data (h : ∀ f ∈ fs, f.datum.quoted? = some f.text) :
    Datum.quotedItems? (data fs) = some (fs.map text) := by
  induction fs with
  | nil => rfl
  | cons f fs ih =>
    obtain ⟨hf, hfs⟩ := List.forall_mem_cons.mp h
    simp only [data, Datum.quotedItems?, hf, ih hfs, List.map_cons]

/-- A text that exists is the written form. -/
lemma text_eq {t : String} (h : f.datum.quoted? = some t) : f.text = t := by
  rw [text, text?, h, Option.getD_some]

/-- A legible picture can be written. -/
lemma Legible.quoted? (h : f.Legible) : f.datum.quoted? = some f.text := by
  have hsome : f.datum.quoted?.isSome = true := by
    induction h with
    | int hi => exact hi
    | tuple _ ih =>
      have hitems := quotedItems?_data fun f hf => by
        obtain ⟨t, ht⟩ := Option.isSome_iff_exists.mp (ih f hf)
        rw [text_eq ht, ht]
      simp only [datum, Datum.quoted?, hitems, Option.map_some, Option.isSome_some]
    | _ => rfl
  obtain ⟨t, ht⟩ := Option.isSome_iff_exists.mp hsome
  rw [text_eq ht, ht]

/-- The items of a tuple from the second one on, and what ends it. -/
def behind (fs : List Frozen) : List Char :=
  (fs.flatMap fun f => ',' :: ' ' :: f.text.toList) ++ [')']

/-- What stands behind the first item of a tuple: there is a comma even if it is the only one. -/
def behindFirst : List Frozen → List Char
  | [] => [',', ')']
  | f :: fs => behind (f :: fs)

/-- What stands behind the opening bracket of a tuple. -/
def inside : List Frozen → List Char
  | [] => [')']
  | f :: fs => f.text.toList ++ behindFirst fs

/-- A tuple is written in brackets. -/
lemma text_tuple (h : ∀ f ∈ fs, f.Legible) : (Frozen.tuple fs).text.toList = '(' :: inside fs := by
  have htext : (Frozen.tuple fs).text = Datum.tupleText (fs.map text) := by
    refine text_eq ?_
    rw [datum, Datum.quoted?, quotedItems?_data fun f hf => (h f hf).quoted?, Option.map_some]
  have hbehind : ∀ (f : Frozen) (fs : List Frozen),
      (String.intercalate ", " ((f :: fs).map text)).toList ++ [')'] =
        f.text.toList ++ behind fs := by
    intro f fs
    induction fs generalizing f with
    | nil => simp [behind]
    | cons g fs ih =>
      rw [List.map_cons, List.map_cons, String.intercalate_cons_cons, ← List.map_cons,
        String.toList_append, List.append_assoc, ih]
      simp [behind]
  rw [htext]
  match fs with
  | [] => rfl
  | [f] => simp [Datum.tupleText, inside, behindFirst]
  | f :: g :: fs =>
    rw [inside, behindFirst, ← hbehind]
    simp [Datum.tupleText]

/-! ## Kinds of pictures -/

/-- The kinds of pictures that are told by their first characters. -/
inductive Kind where
  | word
  | text
  | bytes
  | tuple
  deriving DecidableEq

/-- The kind of a picture: a constant without quotes is a word. -/
def kind : Frozen → Kind
  | .str _ => .text
  | .bytes _ => .bytes
  | .tuple _ => .tuple
  | _ => .word

/-- The kind of the pictures that begin with a character. -/
def Kind.of (c : Char) : Kind :=
  if c = '(' then .tuple
  else if c = 'b' then .bytes
  else if c = '\'' ∨ c = '"' then .text
  else .word

/-- An integer that can be written is written in base ten. -/
lemma text_int {i : Int} (hi : (integerText? i).isSome = true) :
    (Frozen.int i).text = toString i := by
  have htext : (Frozen.int i).datum.quoted? = integerText? i := by rw [datum, Datum.quoted?]
  rw [Frozen.text, Frozen.text?, htext]
  -- the bound on the number of digits is not to be computed
  rw [integerText?] at hi ⊢
  generalize Nat.pow 10 digitLimit = bound at hi ⊢
  split
  · rfl
  · rename_i hbound
    simp [hbound] at hi

/-- The characters that do not stand in a word. -/
def marks : List Char := ['(', 'b', '\'', '"', ',', ')']

/-- No mark stands in a word. -/
lemma Legible.notMem_of_word (hf : f.Legible) (hw : f.kind = .word) {c : Char} (hc : c ∈ marks) :
    c ∉ f.text.toList := by
  have hword : ∀ {t : String}, marks.all (fun c => !t.toList.contains c) = true →
      c ∉ t.toList := fun ht => by simpa using List.all_eq_true.mp ht c hc
  cases hf with
  | none => exact hword (by decide)
  | bool b => cases b <;> exact hword (by decide)
  | int hi =>
    have hmarks : marks.all (fun c => !c.isDigit && c != '-') = true := by decide
    have hmark := List.all_eq_true.mp hmarks c hc
    simp only [Bool.and_eq_true, Bool.not_eq_true', bne_iff_ne] at hmark
    rw [text_int hi]
    exact notMem_toString_int hmark.1 hmark.2 _
  | _ => simp [kind] at hw

/-- A picture begins with a character, which tells its kind. -/
lemma Legible.exists_cons (hf : f.Legible) :
    ∃ c cs, f.text.toList = c :: cs ∧ Kind.of c = f.kind := by
  by_cases hw : f.kind = .word
  · obtain ⟨c, cs, htext⟩ : ∃ c cs, f.text.toList = c :: cs := by
      refine List.exists_cons_of_ne_nil fun hnil => ?_
      cases hf with
      | none => revert hnil; decide
      | bool b => revert hnil; cases b <;> decide
      | int hi =>
        rw [text_int hi, Int.toString_eq_repr, Int.repr_eq_if] at hnil
        split at hnil <;> simp at hnil
      | _ => simp [kind] at hw
    have hmarks : ∀ m ∈ marks, c ≠ m := fun m hm heq =>
      hf.notMem_of_word hw hm (by simp [htext, heq])
    simp only [marks, List.forall_mem_cons] at hmarks
    exact ⟨c, cs, htext, by rw [hw, Kind.of]; simp [hmarks]⟩
  · cases hf with
    | str t =>
      refine ⟨_, _, by rw [Frozen.text, Frozen.text?, datum, Datum.quoted?, Option.getD_some,
        Quoted.text, String.toList_ofList, Quoted.chars], ?_⟩
      obtain hq | hq := Quoted.isQuote_quoteFor t.toList <;> rw [hq] <;> rfl
    | bytes bs =>
      exact ⟨_, _, by rw [Frozen.text, Frozen.text?, datum, Datum.quoted?, Option.getD_some,
        Quoted.bytes, String.toList_ofList], rfl⟩
    | tuple hitems => exact ⟨_, _, text_tuple hitems, rfl⟩
    | _ => exact absurd rfl hw

/-- Pictures that are written alike are of one kind. -/
lemma Legible.kind_eq (hf : f.Legible) (hg : g.Legible)
    (h : f.text.toList ++ r = g.text.toList ++ s) : f.kind = g.kind := by
  obtain ⟨c, cs, hc, hfc⟩ := hf.exists_cons
  obtain ⟨d, ds, hd, hgd⟩ := hg.exists_cons
  rw [hc, hd] at h
  rw [← hfc, ← hgd, (List.cons.inj h).1]

/-- A word tells the constant: only an integer is read as an integer. -/
lemma Legible.eq_of_word (hf : f.Legible) (hg : g.Legible) (hw : f.kind = .word)
    (hw' : g.kind = .word) (h : f.text = g.text) : f = g := by
  have hword : ∀ {f : Frozen}, f.Legible → f.kind = .word →
      (∃ i, f = .int i ∧ Lab.readId? f.text = some i) ∨
      (f ∈ [Frozen.none, .bool true, .bool false] ∧ Lab.readId? f.text = Option.none) := by
    intro f hf hw
    cases hf with
    | none => exact .inr ⟨by simp, by decide +kernel⟩
    | bool b => exact .inr ⟨by cases b <;> simp, by cases b <;> decide +kernel⟩
    | int hi => exact .inl ⟨_, rfl, by rw [text_int hi, Lab.readId?_toString]⟩
    | _ => simp [kind] at hw
  rcases hword hf hw with ⟨i, rfl, hi⟩ | ⟨hfc, hi⟩ <;>
    rcases hword hg hw' with ⟨j, rfl, hj⟩ | ⟨hgc, hj⟩
  · rw [h, hj] at hi
    rw [Option.some.inj hi]
  · simp [h, hj] at hi
  · simp [h, hj] at hi
  · exact List.inj_on_of_nodup_map (f := text) (by decide) hfc hgc h

/-! ## Telling pictures apart -/

/-- What may stand behind a picture inside another one: a comma or a bracket comes first. -/
def Ended (r : List Char) : Prop := ∀ c ∈ r.head?, c = ',' ∨ c = ')'

/-- A picture is told from its written form, whatever follows it. -/
def Told (f : Frozen) : Prop :=
  ∀ {g : Frozen} {r s : List Char}, g.Legible → Ended r → Ended s →
    f.text.toList ++ r = g.text.toList ++ s → f = g ∧ r = s

/-- What stands behind an item of a tuple begins with a comma or a bracket. -/
lemma ended_behind (fs : List Frozen) (r : List Char) : Ended (behind fs ++ r) := by
  unfold Ended
  cases fs <;> simp [behind]

/-- What stands behind the first item of a tuple begins with a comma. -/
lemma ended_behindFirst (fs : List Frozen) (r : List Char) : Ended (behindFirst fs ++ r) := by
  cases fs with
  | nil => simp [Ended, behindFirst]
  | cons f fs => exact ended_behind (f :: fs) r

/-- A word is told, because no comma and no bracket stands in it. -/
lemma Legible.told_of_word (hf : f.Legible) (hw : f.kind = .word) : f.Told := by
  intro g r s hg hr hs h
  have hw' : g.kind = .word := (hf.kind_eq hg h).symm.trans hw
  have hfirst : ∀ {f : Frozen} {r : List Char}, f.Legible → f.kind = .word → Ended r →
      (f.text.toList ++ r).takeWhile (fun c => !marks.contains c) = f.text.toList := by
    intro f r hf hw hr
    rw [List.takeWhile_append_of_pos]
    · have hnil : r.takeWhile (fun c => !marks.contains c) = [] := by
        cases r with
        | nil => rfl
        | cons c r =>
          obtain rfl | rfl := hr c rfl <;> rfl
      rw [hnil, List.append_nil]
    · intro c hc
      simpa using fun hm => hf.notMem_of_word hw hm hc
  have htext : f.text.toList = g.text.toList := by
    rw [← hfirst hf hw hr, h, hfirst hg hw' hs]
  rw [htext] at h
  exact ⟨hf.eq_of_word hg hw hw' (String.toList_inj.mp htext), List.append_cancel_left h⟩

/-- The items of a tuple are told if each of them is. -/
lemma eq_of_behind (ht : ∀ f ∈ fs, f.Told) (hg : ∀ g ∈ gs, g.Legible)
    (h : behind fs ++ r = behind gs ++ s) : fs = gs ∧ r = s := by
  induction fs generalizing gs with
  | nil =>
    cases gs with
    | nil => exact ⟨rfl, (List.cons.inj h).2⟩
    | cons g gs => simp [behind] at h
  | cons f fs ih =>
    cases gs with
    | nil => simp [behind] at h
    | cons g gs =>
      obtain ⟨htf, htfs⟩ := List.forall_mem_cons.mp ht
      obtain ⟨hgl, hgls⟩ := List.forall_mem_cons.mp hg
      have hitem : f.text.toList ++ (behind fs ++ r) = g.text.toList ++ (behind gs ++ s) := by
        simpa [behind] using h
      obtain ⟨rfl, hrest⟩ := htf hgl (ended_behind _ _) (ended_behind _ _) hitem
      obtain ⟨rfl, rfl⟩ := ih htfs hgls hrest
      exact ⟨rfl, rfl⟩

/-- No picture begins with a closing bracket. -/
lemma Legible.append_ne (hf : f.Legible) : f.text.toList ++ r ≠ ')' :: s := by
  intro h
  obtain ⟨c, cs, hc, hkind⟩ := hf.exists_cons
  rw [hc] at h
  obtain rfl : c = ')' := (List.cons.inj h).1
  exact hf.notMem_of_word (c := ')') hkind.symm (by decide) (by simp [hc])

/-- What stands behind the opening bracket tells the items, if each of them is told. -/
lemma eq_of_inside (ht : ∀ f ∈ fs, f.Told) (hf : ∀ f ∈ fs, f.Legible) (hg : ∀ g ∈ gs, g.Legible)
    (h : inside fs ++ r = inside gs ++ s) : fs = gs ∧ r = s := by
  cases fs with
  | nil =>
    cases gs with
    | nil => exact ⟨rfl, (List.cons.inj h).2⟩
    | cons g gs =>
      rw [inside, inside, List.append_assoc] at h
      exact absurd h.symm (hg g List.mem_cons_self).append_ne
  | cons f fs =>
    rw [inside, List.append_assoc] at h
    cases gs with
    | nil => exact absurd h (hf f List.mem_cons_self).append_ne
    | cons g gs =>
      rw [inside, List.append_assoc] at h
      obtain ⟨htf, htfs⟩ := List.forall_mem_cons.mp ht
      obtain ⟨hgl, hgls⟩ := List.forall_mem_cons.mp hg
      obtain ⟨rfl, hrest⟩ := htf hgl (ended_behindFirst _ _) (ended_behindFirst _ _) h
      -- a single item has nothing between its comma and the bracket
      cases fs <;> cases gs
      · exact ⟨rfl, by simpa [behindFirst] using hrest⟩
      · simp [behindFirst, behind] at hrest
      · simp [behindFirst, behind] at hrest
      · obtain ⟨heq, hrest⟩ := eq_of_behind htfs hgls hrest
        exact ⟨by rw [heq], hrest⟩

/-- Legible pictures are told. -/
theorem Legible.told (hf : f.Legible) : f.Told := by
  induction hf with
  | none => exact Legible.none.told_of_word rfl
  | bool b => exact (Legible.bool b).told_of_word rfl
  | int hi => exact (Legible.int hi).told_of_word rfl
  | str t =>
    intro g r s hg _ _ h
    have hkind := (Legible.str t).kind_eq hg h
    cases hg with
    | str u =>
      obtain ⟨rfl, hrest⟩ := Quoted.eq_of_text_append h
      exact ⟨rfl, hrest⟩
    | _ => simp [kind] at hkind
  | bytes bs =>
    intro g r s hg _ _ h
    have hkind := (Legible.bytes bs).kind_eq hg h
    cases hg with
    | bytes cs =>
      obtain ⟨rfl, hrest⟩ := Quoted.eq_of_bytes_append h
      exact ⟨rfl, hrest⟩
    | _ => simp [kind] at hkind
  | @tuple fs hfs ih =>
    intro g r s hg _ _ h
    have hkind := (Legible.tuple hfs).kind_eq hg h
    cases hg with
    | @tuple gs hgs =>
      rw [text_tuple hfs, text_tuple hgs] at h
      obtain ⟨rfl, hrest⟩ := eq_of_inside ih hfs hgs (List.cons.inj h).2
      exact ⟨rfl, hrest⟩
    | _ => simp [kind] at hkind

/-- Legible pictures with equal written forms are equal. -/
theorem Legible.eq_of_text (hf : f.Legible) (hg : g.Legible) (h : f.text = g.text) : f = g := by
  have hended : Ended [] := by simp [Ended]
  exact (hf.told hg hended hended (by rw [h])).1

end Frozen

/-! ## Pictures that can be made -/

namespace Frozen

/-- Nothing has gone wrong in a tuple if nothing has in its items. -/
@[simp] lemma fault?_tuple_eq_none {fs : List Frozen} :
    (Frozen.tuple fs).fault? = Option.none ↔ ∀ f ∈ fs, f.fault? = Option.none := by
  rw [fault?]
  induction fs with
  | nil => simp [faultOf?]
  | cons f fs ih => simp [faultOf?, ih]

/-- What has gone wrong in a picture with a name has gone wrong in the picture. -/
@[simp] lemma fault?_pair {t : String} {f : Frozen} :
    (Frozen.tuple [.str t, f]).fault? = f.fault? := by
  cases h : f.fault? <;> simp [fault?, faultOf?, h]

/-- Nothing has gone wrong in a legible picture. -/
lemma Legible.fault? {f : Frozen} (h : f.Legible) : f.fault? = Option.none := by
  induction h with
  | tuple _ ih => exact fault?_tuple_eq_none.mpr ih
  | _ => rfl

/-- The written form of a legible picture. -/
lemma Legible.written {f : Frozen} (h : f.Legible) : f.written = .ok f.text := by
  have htext : f.text? = some f.text := h.quoted?
  simp only [Frozen.written, h.fault?, htext]

end Frozen

/-! ## The arrangement -/

/-- Entries put in order of their names are the same entries. -/
lemma byName_perm {α : Type} (es : List (String × α)) : (byName es).Perm es :=
  List.mergeSort_perm es _

/-- Entries put in order of their names are in order of their names. -/
lemma pairwise_byName {α : Type} (es : List (String × α)) :
    (byName es).Pairwise fun a b => a.1 ≤ b.1 := by
  refine (List.pairwise_mergeSort (fun a b c hab hbc => ?_) (fun a b => ?_) es).imp
    fun hab => of_decide_eq_true hab
  · exact decide_eq_true (String.le_trans (of_decide_eq_true hab) (of_decide_eq_true hbc))
  · simpa using String.le_total a.1 b.1

/-- Entries of which no two have the same name are put in the same order whichever way they are
given. -/
lemma byName_eq_of_perm {α : Type} {es es' : List (String × α)} (h : es.Perm es')
    (hnames : ∀ e ∈ es, ∀ e' ∈ es, e.1 = e'.1 → e = e') : byName es = byName es' := by
  refine List.Perm.eq_of_pairwise (fun e e' he he' hle hle' => ?_) (pairwise_byName es)
    (pairwise_byName es') ?_
  · rw [List.mem_mergeSort] at he he'
    exact hnames e he e' (h.mem_iff.mpr he') (String.le_antisymm hle hle')
  · exact ((byName_perm es).trans h).trans (byName_perm es').symm

/-- Legible pictures are put in order of their written forms. -/
lemma arrangeFrozen_of_legible {fs : List Frozen} (hf : ∀ f ∈ fs, f.Legible) :
    arrangeFrozen fs = .tuple ((byName (fs.map fun f => (f.text, f))).map Prod.snd) := by
  have hfault : Frozen.faultOf? fs = none :=
    Frozen.fault?_tuple_eq_none.mpr fun f hmem => (hf f hmem).fault?
  have htexts : fs.mapM Frozen.text? = some (fs.map Frozen.text) := by
    clear hfault
    induction fs with
    | nil => rfl
    | cons f fs ih =>
      obtain ⟨hf, hfs⟩ := List.forall_mem_cons.mp hf
      have hone : f.text? = some f.text := hf.quoted?
      rw [List.mapM_cons, hone, ih hfs]
      rfl
  have hzip : (fs.map Frozen.text).zip (fs.map id) = fs.map fun f => (f.text, f) := List.zip_map'
  rw [List.map_id] at hzip
  simp only [arrangeFrozen, hfault, htexts, hzip]

/-- The arrangement of legible pictures does not depend on the order in which they are given.

**Proof sketch.** It is in order of their written forms, which are different for different
pictures. -/
theorem arrangeFrozen_eq_of_perm {fs gs : List Frozen} (hf : ∀ f ∈ fs, f.Legible)
    (h : fs.Perm gs) : arrangeFrozen fs = arrangeFrozen gs := by
  rw [arrangeFrozen_of_legible hf, arrangeFrozen_of_legible fun f hmem => hf f (h.mem_iff.mpr hmem)]
  refine congrArg (fun es => Frozen.tuple (List.map Prod.snd es))
    (byName_eq_of_perm (h.map fun f => (f.text, f)) ?_)
  simp only [List.mem_map]
  rintro _ ⟨f, hmem, rfl⟩ _ ⟨g, hmem', rfl⟩ htext
  rw [(hf f hmem).eq_of_text (hf g hmem') htext]

end StateAtlas
