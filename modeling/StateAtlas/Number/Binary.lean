set_option autoImplicit false

/-!
# Binary floating-point numbers, exactly

A finite floating-point number is a sign, a natural mantissa and a power of two. All exact
arithmetic on such numbers (truncation, rounding, comparison with integers) is done on this view.

## Main definitions

* `StateAtlas.Binary` — the exact value of a floating-point number.
* `StateAtlas.Binary.ofFloat` — the view of a `Float`.
* `StateAtlas.Binary.truncate?`, `StateAtlas.Binary.round?` — towards zero, and to the nearest
  integer with ties to the even one.
* `StateAtlas.floatOfInt?` — the nearest `Float` of an integer, if it does not overflow.
-/

namespace StateAtlas

/-- The exact value of a floating-point number; `finite n m e` is `m * 2 ^ e`, negated if `n`. -/
inductive Binary where
  | nan
  | infinite (negative : Bool)
  | finite (negative : Bool) (mantissa : Nat) (exponent : Int)
  deriving DecidableEq, Repr

namespace Binary

/-- The fields of a 64-bit pattern: one sign bit, eleven of exponent, fifty-two of fraction. -/
def ofBits (bits : Nat) : Binary :=
  let negative := bits / Nat.pow 2 63 % 2 == 1
  let exponent : Nat := bits / Nat.pow 2 52 % Nat.pow 2 11
  let fraction := bits % Nat.pow 2 52
  if exponent == 2047 then
    if fraction == 0 then .infinite negative else .nan
  else if exponent == 0 then .finite negative fraction (-1074)
  else .finite negative (fraction + Nat.pow 2 52) ((exponent : Int) - 1075)

/-- The exact value of a `Float`. -/
def ofFloat (x : Float) : Binary := ofBits x.toBits.toNat

/-- A magnitude as a quotient of natural numbers. -/
def quotient (mantissa : Nat) (exponent : Int) : Nat × Nat :=
  if 0 ≤ exponent then (mantissa * Nat.pow 2 exponent.toNat, 1)
  else (mantissa, Nat.pow 2 (-exponent).toNat)

/-- An integer with the given sign and magnitude. -/
def signed (negative : Bool) (n : Nat) : Int := if negative then -(n : Int) else n

/-- The integer part of a finite number. -/
def truncate? : Binary → Option Int
  | .finite negative m e =>
    let (num, den) := quotient m e
    some (signed negative (num / den))
  | _ => none

/-- The nearest natural number to a quotient; of two nearest ones the even one. -/
def roundQuotient (num den : Nat) : Nat :=
  let q := num / den
  let r := num % den
  if 2 * r < den then q
  else if den < 2 * r then q + 1
  else if q % 2 == 0 then q else q + 1

/-- The integer nearest to a finite number; of two nearest ones the even one. -/
def round? : Binary → Option Int
  | .finite negative m e =>
    let (num, den) := quotient m e
    some (signed negative (roundQuotient num den))
  | _ => none

/-- The integer a finite number is equal to, if it is whole. -/
def whole? : Binary → Option Int
  | .finite negative m e =>
    let (num, den) := quotient m e
    if num % den == 0 then some (signed negative (num / den)) else none
  | _ => none

example : ofBits 0x3FF8000000000000 = .finite false (3 * 2 ^ 51) (-52) := by decide
example : (ofBits 0x4004000000000000).round? = some 2 := by decide
example : (ofBits 0xC004000000000000).truncate? = some (-2) := by decide

end Binary

/-- The nearest floating-point number of an integer, or `none` when it is too large for one. -/
def floatOfInt? (i : Int) : Option Float :=
  let x := Float.ofScientific i.natAbs false 0
  match Binary.ofFloat x with
  | .finite .. => some (if i < 0 then -x else x)
  | _ => none

end StateAtlas
