set_option autoImplicit false

/-!
# Classes of characters

A class of characters is given by its *edges*: the ascending list of code points at which
membership changes, the first of them being the least member. A code point belongs to the class
when an odd number of edges lie at or below it.

## Main definitions

* `StateAtlas.CharClass` — a class of characters by its edges.
* `StateAtlas.CharClass.contains` — membership of a character.
-/

namespace StateAtlas

/-- A class of characters, given by the ascending code points at which membership changes. -/
structure CharClass where
  edges : List Nat

namespace CharClass

/-- Whether code point `c` lies inside the class with the given edges. -/
def inside (c : Nat) : List Nat → Bool
  | [] => false
  | e :: es => if c < e then false else !(inside c es)

/-- Membership of a character in a class. -/
def contains (k : CharClass) (c : Char) : Bool :=
  inside c.toNat k.edges

@[simp] theorem inside_nil (c : Nat) : inside c [] = false := rfl

theorem inside_cons_of_lt {c e : Nat} (es : List Nat) (h : c < e) : inside c (e :: es) = false := by
  simp [inside, h]

theorem inside_cons_of_le {c e : Nat} (es : List Nat) (h : e ≤ c) :
    inside c (e :: es) = !(inside c es) := by
  simp [inside, Nat.not_lt.mpr h]

end CharClass

end StateAtlas
