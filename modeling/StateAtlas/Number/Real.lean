import StateAtlas.Number.Binary

set_option autoImplicit false

/-!
# Numbers of both kinds

An integer and a floating-point number are compared by their exact values. Floored division of
floating-point numbers is exact as well: the remainder is a floating-point number by itself.

## Main definitions

* `StateAtlas.Real` — an integer or a floating-point number.
* `StateAtlas.Real.compare?` — the order of exact values; missing for what is not a number.
* `StateAtlas.floatRemainder` — the remainder with the sign of the divisor.
-/

namespace StateAtlas

/-- An integer or a floating-point number. -/
inductive Real where
  | int (i : Int)
  | float (x : Float)
  deriving Inhabited

/-- The order of an integer and a floating-point number by their exact values. -/
def compareIntFloat? (i : Int) (x : Float) : Option Ordering :=
  match Binary.ofFloat x with
  | .nan => none
  | .infinite negative => some (if negative then .gt else .lt)
  | .finite negative m e =>
    let (num, den) := Binary.quotient m e
    some (compare (i * den) (Binary.signed negative num))

namespace Real

/-- The order of two numbers by their exact values. -/
def compare? : Real → Real → Option Ordering
  | .int i, .int j => some (compare i j)
  | .int i, .float y => compareIntFloat? i y
  | .float x, .int j => (compareIntFloat? j x).map Ordering.swap
  | .float x, .float y =>
    if x < y then some .lt else if y < x then some .gt else if x == y then some .eq else none

/-- Whether two numbers are equal. -/
def equal (a b : Real) : Bool := a.compare? b == some .eq

/-- The nearest floating-point number, unless the integer is too large for one. -/
def toFloat? : Real → Option Float
  | .int i => floatOfInt? i
  | .float x => some x

/-- Whether a number is zero. -/
def isZero : Real → Bool
  | .int i => i == 0
  | .float x => x == 0.0

end Real

/-- The remainder of exact division towards zero, which has the sign of the dividend. -/
def truncatedRemainder (x y : Float) : Float :=
  match Binary.ofFloat x, Binary.ofFloat y with
  | .finite n m e, .finite _ m' e' =>
    let low := min e e'
    let a := m * Nat.pow 2 (e - low).toNat
    let b := m' * Nat.pow 2 (e' - low).toNat
    let r := (a % b).toFloat.scaleB low
    if n then -r else r
  | .finite .., .infinite _ => x
  | _, _ => 0.0 / 0.0

/-- The remainder with the sign of the divisor. -/
def floatRemainder (x y : Float) : Float :=
  let r := truncatedRemainder x y
  if r == 0.0 then (if y < 0.0 then -0.0 else 0.0)
  else if (r < 0.0) != (y < 0.0) then r + y
  else r

/-- The quotient rounded down. -/
def floatFloorQuotient (x y : Float) : Float :=
  let r := truncatedRemainder x y
  let q := (x - r) / y
  let q := if r != 0.0 && ((r < 0.0) != (y < 0.0)) then q - 1.0 else q
  if q == 0.0 then (if x / y < 0.0 then -0.0 else 0.0)
  else
    let f := q.floor
    if q - f > 0.5 then f + 1.0 else f

/-- The floating-point number nearest to a quotient of integers, if there is one in range. -/
def intQuotient? (i j : Int) : Option Float :=
  let negative := (i < 0) != (j < 0)
  let a := i.natAbs
  let b := j.natAbs
  let shift : Int := (a.log2 : Int) - (b.log2 : Int) - 65
  let num := if shift < 0 then a * Nat.pow 2 (-shift).toNat else a
  let den := if shift < 0 then b else b * Nat.pow 2 shift.toNat
  let q := num / den * 2 + (if num % den == 0 then 0 else 1)
  let x := (if q == 0 then 0.0 else q.toFloat).scaleB (shift - 1)
  if x.isFinite then some (if negative then -x else x) else none

end StateAtlas
