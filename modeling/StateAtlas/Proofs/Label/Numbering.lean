import Mathlib.Data.List.Induction
import StateAtlas.Proofs.Data.Bindings
import StateAtlas.Proofs.Label.Tally

set_option autoImplicit false

/-!
# The numbering of labels

A registry numbers the labels from zero on, in the order in which they are first interned. A label
keeps its number whatever is interned later, so that labels and numbers can be exchanged for one
another at any time.

## Main definitions

* `StateAtlas.Registry.internAll` — interns labels one after another.

## Main results

* `StateAtlas.Registry.intern_of_mem`, `StateAtlas.Registry.labels_intern` — what interning a label
  does to a registry.
* `StateAtlas.Registry.labels_internAll`, `StateAtlas.Registry.indices_internAll` — what is listed
  and given out when labels are interned one after another.
* `StateAtlas.Registry.numbering` — the labels of a registry and the numbers below their count are
  the same thing.
-/

namespace StateAtlas

namespace Registry

variable {r r' : Registry} {l : Label}

/-- Interns labels one after another: the indices that are given out, and the registry at the
end. -/
def internAll (r : Registry) : List Label → List Nat × Registry
  | [] => ([], r)
  | l :: ls =>
    let (i, r) := r.intern l
    let (is, r) := internAll r ls
    (i :: is, r)

/-! ## Places -/

/-- A listed label is found at its place. -/
lemma indexOf?_of_mem (h : l ∈ r.labels) : r.indexOf? l = some (r.labels.idxOf l) :=
  indexOf?_eq_some.mpr (List.getElem?_idxOf h)

lemma isSome_indexOf?_iff : (r.indexOf? l).isSome ↔ l ∈ r.labels := by
  rw [Option.isSome_iff_exists, List.mem_iff_getElem?]
  simp only [indexOf?_eq_some]

/-- A label keeps its place when a registry grows. -/
lemma idxOf_of_grows (h : r.labels <+: r'.labels) (hl : l ∈ r.labels) :
    r'.labels.idxOf l = r.labels.idxOf l := by
  obtain ⟨later, hlater⟩ := h
  rw [← hlater, List.idxOf_append, if_pos hl]

/-- A label is got by its index, and by no other number from zero on. -/
lemma get_eq_ok_iff {i : Nat} : r.get i = .ok l ↔ r.indexOf? l = some i := by
  have hnth : nth? r.labels i = r.labels[i]? := by simp [nth?]
  rw [indexOf?_eq_some, get, hnth]
  cases r.labels[i]? with
  | some l' => simp
  | none =>
    simp only [reduceCtorEq, iff_false]
    split <;> simp

/-! ## One label -/

/-- A label that is listed gets the index of its place, and nothing changes. -/
lemma intern_of_mem (h : l ∈ r.labels) : r.intern l = (r.labels.idxOf l, r) := by
  have hindex := indexOf?_of_mem h
  rw [intern]
  split
  · rename_i i hi
    rw [Option.some.inj (hi.symm.trans hindex)]
  · rename_i hi
    cases hi.symm.trans hindex

/-- A label that is not listed is added at the end. -/
lemma labels_intern (r : Registry) (l : Label) :
    (r.intern l).2.labels = if l ∈ r.labels then r.labels else r.labels ++ [l] := by
  split
  · rename_i h
    rw [intern_of_mem h]
  · rename_i h
    rw [← isSome_indexOf?_iff, Bool.not_eq_true, Option.isSome_eq_false_iff,
      Option.isNone_iff_eq_none] at h
    rw [intern]
    split
    · rename_i hi
      cases hi.symm.trans h
    · rfl

/-- The index that is given out is that of the place the label has from then on. -/
lemma intern_fst (r : Registry) (l : Label) :
    (r.intern l).1 = (r.intern l).2.labels.idxOf l := by
  obtain ⟨hindex, -⟩ := r.intern_spec l
  have hmem : l ∈ (r.intern l).2.labels := List.mem_of_getElem? (indexOf?_eq_some.mp hindex)
  exact Option.some.inj (hindex.symm.trans (indexOf?_of_mem hmem))

/-! ## Labels one after another -/

lemma internAll_append (r : Registry) (ls ls' : List Label) :
    r.internAll (ls ++ ls') = ((r.internAll ls).1 ++ ((r.internAll ls).2.internAll ls').1,
      ((r.internAll ls).2.internAll ls').2) := by
  induction ls generalizing r with
  | nil => rfl
  | cons l ls ih => simp [internAll, ih]

/-- Nothing is forgotten. -/
lemma grows_internAll (r : Registry) (ls : List Label) :
    r.labels <+: (r.internAll ls).2.labels := by
  induction ls generalizing r with
  | nil => exact List.prefix_refl _
  | cons l ls ih => exact (r.intern_spec l).2.trans (ih _)

/-- The distinct labels are listed in the order in which they were first interned.

**Proof sketch.** Induction on the calls from the last one backwards: it adds its label to what the
calls before it have listed, unless one of them had the same label. -/
lemma labels_internAll (calls : List Label) :
    (empty.internAll calls).2.labels = calls.eraseDups := by
  induction calls using List.reverseRecOn with
  | nil => rfl
  | append_singleton ls l ih =>
    rw [internAll_append, eraseDups_concat, ← ih]
    simp only [internAll, labels_intern, ih, List.mem_eraseDups]

/-- Every call gives out the index of the place its label has at the end.

**Proof sketch.** Induction on the calls: the first one gives out the place that the label has right
after it, and the registry only grows from there. -/
lemma indices_internAll (r : Registry) (calls : List Label) :
    (r.internAll calls).1 = calls.map fun l => (r.internAll calls).2.labels.idxOf l := by
  induction calls generalizing r with
  | nil => rfl
  | cons l ls ih =>
    have hmem : l ∈ (r.intern l).2.labels :=
      List.mem_of_getElem? (indexOf?_eq_some.mp (r.intern_spec l).1)
    have hfirst : (r.intern l).1 = ((r.intern l).2.internAll ls).2.labels.idxOf l := by
      rw [intern_fst, idxOf_of_grows (grows_internAll _ ls) hmem]
    simp only [internAll, List.map_cons, ← hfirst, ← ih]

/-- **Labels and their numbers.** After any calls on a new registry:

* the labels that are listed are the distinct ones, in the order in which they were first interned;
* every call has given out the index of the place of its label, and would give it out again after
  any further calls;
* looking up the index of a label and getting the label of an index are inverse to each other,
  between the interned labels and the numbers below their count;
* just the interned labels are contained; and
* nothing is changed when one of them is interned once more. -/
theorem numbering (calls : List Label) :
    let r := (empty.internAll calls).2
    r.labels = calls.eraseDups ∧
      (empty.internAll calls).1 = (calls.map fun l => r.labels.idxOf l) ∧
      (∀ later, ∀ l ∈ calls, ((r.internAll later).2.intern l).1 = r.labels.idxOf l) ∧
      (∀ l (i : Nat), r.indexOf? l = some i ↔ r.get i = .ok l) ∧
      (∀ l, (∃ i, r.indexOf? l = some i) ↔ l ∈ calls) ∧
      (∀ i : Nat, (∃ l, r.get i = .ok l) ↔ i < r.count) ∧
      (∀ l, r.contains l = true ↔ l ∈ calls) ∧
      ∀ l ∈ calls, (r.intern l).2 = r := by
  intro r
  have hmem : ∀ l, l ∈ r.labels ↔ l ∈ calls := fun l => by
    rw [labels_internAll, List.mem_eraseDups]
  have hcontains : ∀ l, (r.indexOf? l).isSome ↔ l ∈ calls := fun l =>
    isSome_indexOf?_iff.trans (hmem l)
  refine ⟨labels_internAll calls, indices_internAll empty calls, fun later l hl => ?_,
    fun l i => get_eq_ok_iff.symm, fun l => ?_, fun i => ?_, hcontains, fun l hl => ?_⟩
  · have hgrows := grows_internAll r later
    have hlisted := (hmem l).mpr hl
    rw [intern_of_mem (hgrows.subset hlisted), idxOf_of_grows hgrows hlisted]
  · rw [← Option.isSome_iff_exists, hcontains]
  · simp only [get_eq_ok_iff, indexOf?_eq_some, count]
    rw [← Option.isSome_iff_exists, isSome_getElem?]
  · rw [intern_of_mem ((hmem l).mpr hl)]

/-- Four labels to intern: the first one comes again, and one shares its name. -/
def greek : List Label := [⟨"zeta", "one"⟩, ⟨"alpha", "one"⟩, ⟨"zeta", "two"⟩, ⟨"zeta", "one"⟩]

/-- They are numbered as they come, and the first one keeps its number. -/
theorem numbering_greek :
    let r := (empty.internAll greek).2
    r.labels = [⟨"zeta", "one"⟩, ⟨"alpha", "one"⟩, ⟨"zeta", "two"⟩] ∧
      (empty.internAll greek).1 = [0, 1, 2, 0] ∧ ⟨"zeta", "one"⟩ ∈ greek ∧
      (∀ later, ((r.internAll later).2.intern ⟨"zeta", "one"⟩).1 = 0) ∧
      (r.intern ⟨"zeta", "one"⟩).2 = r := by
  intro r
  obtain ⟨hlabels, hindices, hstable, -, -, -, -, hsame⟩ := numbering greek
  have hgreek : greek.eraseDups = [⟨"zeta", "one"⟩, ⟨"alpha", "one"⟩, ⟨"zeta", "two"⟩] := by decide
  have hr : r.labels = [⟨"zeta", "one"⟩, ⟨"alpha", "one"⟩, ⟨"zeta", "two"⟩] := hlabels.trans hgreek
  have hmem : ⟨"zeta", "one"⟩ ∈ greek := by decide
  refine ⟨hr, ?_, hmem, fun later => ?_, hsame _ hmem⟩
  · rw [hindices, hlabels, hgreek]
    decide
  · rw [hstable later _ hmem, hlabels, hgreek]
    decide

end Registry

end StateAtlas
