import StateAtlas.Proofs.Config.Answer
import StateAtlas.Proofs.Data.Bindings

set_option autoImplicit false

/-!
# Nested and flat configurations

A configuration can be nested in any way, and names can be joined by dots beforehand. What counts is
the sequence of its leaves under their dotted names: later leaves replace earlier ones of the same
name, and names keep the place where they first occur.

## Main definitions

* `StateAtlas.Datum.IsLeaf` — a datum is no mapping.
* `StateAtlas.Datum.leavesOf` — the leaves of a mapping with the names on the way to them.
* `StateAtlas.Config.dottedLeaves` — the leaves of a mapping under their dotted names.
* `StateAtlas.Config.flat` — a configuration as a mapping without mappings in it.

## Main results

* `StateAtlas.Document.flattenFields_ofEntries` — flattening binds the leaves one after another.
* `StateAtlas.Config.nesting_invisible` — a configuration is that of its dotted leaves.
-/

namespace StateAtlas

namespace Datum

/-- A datum is no mapping, not even one that contains itself. -/
def IsLeaf : Datum → Prop
  | .dict _ => False
  | .cycle isMapping => isMapping = false
  | _ => True

/-- The name that a key stands for; a key that cannot be written has none. -/
def keyName (key : Datum) : String := key.shown?.getD ""

mutual

/-- The leaves in a datum, each with the names on the way to it, in document order. -/
def leaves : Datum → List (List String × Datum)
  | .dict entries => leavesOf entries
  | .cycle true => []
  | d => [([], d)]

/-- The leaves in the entries of a mapping. -/
def leavesOf : List (Datum × Datum) → List (List String × Datum)
  | [] => []
  | (k, v) :: es => (leaves v).map (fun l => (k.keyName :: l.1, l.2)) ++ leavesOf es

end

/-- A leaf is its own only leaf. -/
lemma leaves_of_isLeaf {d : Datum} (h : d.IsLeaf) : d.leaves = [([], d)] := by
  cases d with
  | dict => exact h.elim
  | cycle isMapping =>
    obtain rfl : isMapping = false := h
    rfl
  | _ => rfl

lemma flattens_of_isLeaf {d : Datum} (h : d.IsLeaf) : d.Flattens := by
  cases d with
  | dict => exact h.elim
  | cycle => exact h
  | _ => exact trivial

mutual

lemma isLeaf_of_mem_leaves : ∀ {d : Datum} {l : List String × Datum}, l ∈ d.leaves → l.2.IsLeaf
  | .dict entries, l, h => isLeaf_of_mem_leavesOf (by rwa [leaves] at h)
  | .cycle true, l, h => by simp [leaves] at h
  | .cycle false, l, h | .null, l, h | .bool _, l, h | .int _, l, h | .float _, l, h
  | .complex .., l, h | .str _, l, h | .bytes _, l, h | .list _, l, h | .tuple _, l, h
  | .set .., l, h | .foreign .., l, h | .unwritable _, l, h => by
    rw [leaves_of_isLeaf (by simp [IsLeaf]), List.mem_singleton] at h
    simp [h, IsLeaf]

/-- What is found at the end of the names is no mapping. -/
lemma isLeaf_of_mem_leavesOf :
    ∀ {es : List (Datum × Datum)} {l : List String × Datum}, l ∈ leavesOf es → l.2.IsLeaf
  | [], l, h => by simp [leavesOf] at h
  | (k, v) :: es, l, h => by
    rw [leavesOf, List.mem_append, List.mem_map] at h
    rcases h with ⟨l', hl', rfl⟩ | h
    · have hleaf : l'.2.IsLeaf := isLeaf_of_mem_leaves hl'
      exact hleaf
    · exact isLeaf_of_mem_leavesOf h

end

lemma ne_nil_of_mem_leavesOf {es : List (Datum × Datum)} {l : List String × Datum}
    (h : l ∈ leavesOf es) : l.1 ≠ [] := by
  induction es with
  | nil => simp [leavesOf] at h
  | cons e es ih =>
    rw [leavesOf, List.mem_append, List.mem_map] at h
    rcases h with ⟨l', -, rfl⟩ | h
    · simp
    · exact ih h

end Datum

namespace Document

open Datum

lemma nameOf_eq_keyName {key : Datum} {name : String} (h : nameOf key = .ok name) :
    name = key.keyName := by
  rw [nameOf] at h
  split at h
  · rename_i hname
    rw [keyName, hname, ← Except.ok.inj h, Option.getD_some]
  · cases h

mutual

/-- Flattening a datum under a dotted name binds its leaves one after another. -/
lemma flattenField_ofDatum : ∀ {d : Datum} {tree : Document}, ofDatum d = .ok tree →
    ∀ (dotted : String) (into : Bindings Datum), flattenField dotted into tree =
      into.setAll (d.leaves.map fun l => (String.intercalate "." (dotted :: l.1), l.2))
  | .dict entries, tree, h => by
    intro dotted into
    rw [ofDatum] at h
    split at h
    · rename_i fields hfields
      obtain rfl := Except.ok.inj h
      rw [flattenField, leaves, flattenFields_ofEntries hfields, ← Bindings.ofList,
        Bindings.merge_ofList]
      congr 1
      refine List.map_congr_left fun l hl => ?_
      -- there is a name behind the dot
      obtain ⟨n, ns, hn⟩ := List.exists_cons_of_ne_nil (ne_nil_of_mem_leavesOf hl)
      rw [hn, String.intercalate_cons_cons]
    · cases h
  | .cycle true, tree, h => by simp [ofDatum] at h
  | .cycle false, tree, h | .null, tree, h | .bool _, tree, h | .int _, tree, h
  | .float _, tree, h | .complex .., tree, h | .str _, tree, h | .bytes _, tree, h
  | .list _, tree, h | .tuple _, tree, h | .set .., tree, h | .foreign .., tree, h
  | .unwritable _, tree, h => by
    intro dotted into
    simp only [ofDatum, Except.ok.injEq] at h
    subst h
    rw [flattenField, leaves_of_isLeaf (by simp [IsLeaf])]
    simp [Bindings.setAll]

/-- Flattening the entries of a mapping binds their leaves one after another.

**Proof sketch.** Mutual induction over the entries and the data in them. The leaves of an inner
mapping are bound in a map of their own, which is merged at once; that comes to the same as binding
them one by one. -/
lemma flattenFields_ofEntries : ∀ {es : List (Datum × Datum)} {fields : List (String × Document)},
    ofEntries es = .ok fields → ∀ (above : String) (into : Bindings Datum),
      flattenFields above into fields =
        into.setAll ((leavesOf es).map fun l => (above ++ String.intercalate "." l.1, l.2))
  | [], fields, h => by
    intro above into
    rw [ofEntries] at h
    rw [← Except.ok.inj h, flattenFields]
    rfl
  | (k, v) :: es, fields, h => by
    intro above into
    rw [ofEntries] at h
    split at h
    · cases h
    · cases h
    · cases h
    · rename_i name tree rest hname htree hrest
      obtain rfl := Except.ok.inj h
      have hfirst :
          ((leaves v).map fun l => (String.intercalate "." ((above ++ name) :: l.1), l.2)) =
          ((leaves v).map fun l => (k.keyName :: l.1, l.2)).map fun l =>
            (above ++ String.intercalate "." l.1, l.2) := by
        rw [List.map_map, nameOf_eq_keyName hname]
        exact List.map_congr_left fun l _ => by rw [String.intercalate_cons_append]; rfl
      rw [flattenFields, flattenField_ofDatum htree, flattenFields_ofEntries hrest, hfirst,
        leavesOf, List.map_append, Bindings.setAll, Bindings.setAll, Bindings.setAll,
        List.foldl_append]

end

end Document

namespace Config

open Datum

/-- The leaves of a mapping in document order, each under the names on the way to it joined by
dots. -/
def dottedLeaves (entries : List (Datum × Datum)) : List (String × Datum) :=
  (leavesOf entries).map fun l => (String.intercalate "." l.1, l.2)

/-- A configuration as a mapping without mappings in it. -/
def flat (c : Config) : List (Datum × Datum) := c.values.entries.map fun e => (.str e.1, e.2)

variable {entries : List (Datum × Datum)}

/-- The configuration of a mapping binds its dotted leaves one after another. -/
lemma ofEntries_eq (h : EntriesFlatten entries) :
    ofEntries entries = .ok ⟨.ofList (dottedLeaves entries)⟩ := by
  obtain ⟨fields, hfields⟩ := (Document.exists_ofEntries_iff entries).mpr h
  rw [ofEntries, hfields]
  simp only [ofFields, Document.flatten, Document.flattenFields_ofEntries hfields,
    String.empty_append]
  rfl

/-- A mapping of texts to leaves has just its own leaves. -/
lemma dottedLeaves_of_isLeaf {es : List (String × Datum)} (h : ∀ e ∈ es, e.2.IsLeaf) :
    EntriesFlatten (es.map fun e => (.str e.1, e.2)) ∧
      dottedLeaves (es.map fun e => (.str e.1, e.2)) = es := by
  induction es with
  | nil => exact ⟨trivial, rfl⟩
  | cons e es ih =>
    obtain ⟨he, hes⟩ := List.forall_mem_cons.mp h
    obtain ⟨hflatten, hleaves⟩ := ih hes
    refine ⟨⟨trivial, flattens_of_isLeaf he, hflatten⟩, ?_⟩
    rw [dottedLeaves] at hleaves ⊢
    rw [List.map_cons, leavesOf, leaves_of_isLeaf he, List.map_append, hleaves]
    rfl

/-- **Nesting is invisible.** If the names in a mapping can be written and no mapping in it contains
itself, its configuration is given by its leaves under their dotted names:

* the names are those of the leaves, in the order of first occurrence;
* under each name is the last leaf of that name;
* every mapping with the same leaves under the same dotted names has the same configuration; and
* the configuration itself, taken as a mapping, is one of them. -/
theorem nesting_invisible (h : EntriesFlatten entries) : ∃ c, ofEntries entries = .ok c ∧
    c.values.keys = ((dottedLeaves entries).map Prod.fst).eraseDups ∧
    (∀ key, c.get? key = ((dottedLeaves entries).filter fun e => e.1 = key).getLast?.map Prod.snd) ∧
    (∀ entries', EntriesFlatten entries' → dottedLeaves entries' = dottedLeaves entries →
      ofEntries entries' = .ok c) ∧
    ofEntries c.flat = .ok c := by
  refine ⟨⟨.ofList (dottedLeaves entries)⟩, ofEntries_eq h, Bindings.keys_ofList _,
    fun key => Bindings.get?_ofList _ key, fun entries' h' heq => heq ▸ ofEntries_eq h', ?_⟩
  have hleaf : ∀ e ∈ (Bindings.ofList (dottedLeaves entries)).entries, e.2.IsLeaf := by
    intro e he
    have hget := (Bindings.find?_eq_some_iff (Bindings.ofList _).nodup).mpr he
    obtain ⟨l, hl, heq⟩ := List.mem_map.mp (Bindings.of_get?_ofList hget)
    exact (Prod.mk.inj heq).2 ▸ isLeaf_of_mem_leavesOf hl
  obtain ⟨hflatten, hleaves⟩ := dottedLeaves_of_isLeaf hleaf
  rw [flat, ofEntries_eq hflatten, hleaves, Bindings.ofList_entries]

/-- A mapping in which dotted and nested names meet, with keys that are no texts and an inner
mapping without entries. -/
def crossed : List (Datum × Datum) :=
  [(.str "a", .dict [(.str "b", .int 1), (.str "c.d", .int 2)]), (.str "a.b", .int 3),
    (.int 1, .dict [(.null, .int 4)]),
    (.str "a.c", .dict [(.str "d", .int 5), (.str "e", .dict [])])]

/-- Its configuration has three names. -/
theorem nesting_invisible_crossed : EntriesFlatten crossed ∧ ∃ c, ofEntries crossed = .ok c ∧
    c.values.keys = ["a.b", "a.c.d", "1.None"] ∧ c.get? "a.b" = some (.int 3) ∧
    c.get? "a.c.d" = some (.int 5) ∧ c.get? "1.None" = some (.int 4) ∧ c.get? "a" = none ∧
    ofEntries c.flat = .ok c := by
  have hshort : (1 : Int).natAbs < Nat.pow 10 digitLimit := by decide +kernel
  have hcrossed : EntriesFlatten crossed :=
    ⟨trivial, ⟨trivial, trivial, trivial, trivial, trivial⟩, trivial, trivial,
      by rwa [Datum.Writable], ⟨trivial, trivial, trivial⟩, trivial,
      ⟨trivial, trivial, trivial, trivial, trivial⟩, trivial⟩
  obtain ⟨c, hc, hkeys, hget, -, hflat⟩ := nesting_invisible hcrossed
  have hone : keyName (.int 1) = "1" := by
    rw [keyName, shown?, quoted?, integerText?, if_pos hshort]
    · decide
    all_goals simp
  have hleaves : dottedLeaves crossed =
      [("a.b", .int 1), ("a.c.d", .int 2), ("a.b", .int 3), ("1.None", .int 4),
        ("a.c.d", .int 5)] := by
    have hnames : leavesOf crossed =
        [(["a", "b"], .int 1), (["a", "c.d"], .int 2), (["a.b"], .int 3), (["1", "None"], .int 4),
          (["a.c", "d"], .int 5)] := by
      simp only [crossed, leavesOf, leaves, hone]
      rfl
    rw [dottedLeaves, hnames]
    rfl
  refine ⟨hcrossed, c, hc, ?_, ?_, ?_, ?_, ?_, hflat⟩
  · rw [hkeys, hleaves]
    decide
  all_goals
    rw [hget, hleaves]
    simp

/-- **Not every mapping has a configuration.** A number with too many digits is no name, and a
mapping that contains itself has no end. -/
theorem nesting_unfinished :
    ofEntries [(.int (Int.pow 16 4000), .int 1)] = .error .integerTooLong ∧
      ofEntries [(.str "k", .cycle true)] = .error .tooDeep := by
  have hlong : ¬ (Int.pow 16 4000).natAbs < Nat.pow 10 digitLimit := by decide +kernel
  refine ⟨?_, rfl⟩
  rw [ofEntries, Document.ofEntries, Document.nameOf]
  simp only [Datum.shown?, Datum.quoted?, integerText?, if_neg hlong]

end Config

end StateAtlas
