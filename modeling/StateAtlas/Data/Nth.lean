set_option autoImplicit false

/-!
# Items by number

An item of a sequence may be counted from the front, from zero on, or from the back.
-/

namespace StateAtlas

/-- The item at an index; a negative index counts from the end. -/
def nth? {α : Type} (items : List α) (i : Int) : Option α :=
  if 0 ≤ i then items[i.toNat]?
  else if -(items.length : Int) ≤ i then items[(items.length + i).toNat]?
  else none

/-- The place that an index means in a sequence of some length. -/
def place? (length : Nat) (i : Int) : Option Nat :=
  let j := if i < 0 then length + i else i
  if 0 ≤ j && j < length then some j.toNat else none

end StateAtlas
