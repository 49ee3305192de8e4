import StateAtlas.Data.Nth
import StateAtlas.Fault

set_option autoImplicit false

/-!
# Labels and their registry

A label is a name with a description. The registry numbers labels in the order in which they are
first met and never forgets one, so an index means the same label for the whole run.

## Main definitions

* `StateAtlas.Label` — a property of a state.
* `StateAtlas.Label.arrange` — the labels of a set in order of name and description, each once.
* `StateAtlas.Registry` — the labels met so far and their indices.
* `StateAtlas.Registry.intern` — the index of a label, which is added if it is new.
* `StateAtlas.Registry.get` — the label of an index.
-/

namespace StateAtlas

/-- A semantic property of a state: a name for files and a description for readers. -/
structure Label where
  name : String
  description : String
  deriving DecidableEq, Repr, Inhabited

namespace Label

/-- Order by name, then by description. -/
def le (a b : Label) : Bool :=
  a.name < b.name || (a.name == b.name && (a.description < b.description ||
    a.description == b.description))

/-- A sorted list without immediate repetitions. -/
def dropRepeats : List Label → List Label
  | [] => []
  | a :: rest =>
    match dropRepeats rest with
    | [] => [a]
    | b :: bs => if a = b then b :: bs else a :: b :: bs

/-- The labels of a set in order of name and description, each once. -/
def arrange (labels : List Label) : List Label := dropRepeats (labels.mergeSort le)

end Label

/-- The labels met so far, and the index under which each is found again. -/
structure Registry where
  labels : List Label
  /-- Each label with its index, in order of first meeting. -/
  indices : List (Label × Nat)
  /-- The index of a label is its place in the list. -/
  agree : ∀ l i, indices.lookup l = some i ↔ labels[i]? = some l

namespace Registry

/-- The registry without labels. -/
def empty : Registry := ⟨[], [], by simp⟩

instance : Inhabited Registry := ⟨empty⟩

/-- The index of a label. -/
def indexOf? (r : Registry) (l : Label) : Option Nat := r.indices.lookup l

/-- A label without an index gets the place behind all others. -/
theorem agree_append {r : Registry} {l : Label} (h : r.indexOf? l = none) (l' : Label) (i : Nat) :
    (r.indices ++ [(l, r.labels.length)]).lookup l' = some i ↔
      (r.labels ++ [l])[i]? = some l' := by
  have hl : ∀ j, r.labels[j]? ≠ some l := fun j hj => by
    rw [indexOf?, (r.agree l j).mpr hj] at h
    cases h
  rw [List.lookup_append, List.getElem?_append]
  by_cases hl' : l' = l
  · subst hl'
    rw [show r.indices.lookup l' = none from h]
    simp only [Option.none_or, List.lookup_cons_self, Option.some.injEq]
    split
    · exact iff_of_false (by omega) (hl i)
    · rw [List.getElem?_singleton]
      split <;> simp <;> omega
  · have hnew : [(l, r.labels.length)].lookup l' = none :=
      List.lookup_eq_none_iff.mpr (by simpa using hl')
    rw [hnew, Option.or_none, r.agree]
    split
    · rfl
    · rw [List.getElem?_eq_none (by omega), List.getElem?_singleton]
      split <;> simp [Ne.symm hl']

/-- The index of a label, which is added at the end if it is new. -/
def intern (r : Registry) (l : Label) : Nat × Registry :=
  match h : r.indexOf? l with
  | some i => (i, r)
  | none =>
    (r.labels.length, {
      labels := r.labels ++ [l]
      indices := r.indices ++ [(l, r.labels.length)]
      agree := agree_append h })

/-- Whether a label has been met. -/
def contains (r : Registry) (l : Label) : Bool := (r.indexOf? l).isSome

/-- The number of labels. -/
def count (r : Registry) : Nat := r.labels.length

/-- The label at an index, which may count from the end. There is none beyond the two ends, and no
registry is so long that it takes more than a machine word to count its labels. -/
def get (r : Registry) (i : Int) : Except Fault Label :=
  match nth? r.labels i with
  | some l => .ok l
  | none =>
    if i < -Int.pow 2 63 || Int.pow 2 63 ≤ i then .error .indexTooLarge
    else .error .indexOutOfRange

/-- A short description of the registry. -/
def summary (r : Registry) : String := "LabelRegistry(" ++ toString r.count ++ " labels)"

end Registry

end StateAtlas
