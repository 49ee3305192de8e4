import StateAtlas.Text.Blank
import StateAtlas.Text.Digit
import StateAtlas.Number.Binary

set_option autoImplicit false

/-!
# Reading and writing decimal numbers

Integers are read with blanks around them, an optional sign, digits of any script and single
underscores between digits. Neither reading nor writing goes beyond 4300 digits.

## Main definitions

* `StateAtlas.readInteger?` — an integer in base ten.
* `StateAtlas.integerText?` — the digits of an integer, if there are not too many.
* `StateAtlas.readFloat?` — a decimal with an optional fraction and exponent.
* `StateAtlas.readNumeral?` — an integer in another base.
* `StateAtlas.readReal?` — a decimal with blanks around it and digits of any script.
-/

namespace StateAtlas

/-- The most digits an integer is read from or written with. -/
def digitLimit : Nat := 4300

/-- White space of ASCII alone, which is all that may stand around an ASCII integer. -/
def isPlainBlank (c : Char) : Bool := c == ' ' || ('\t' ≤ c && c ≤ '\r')

/-- Blanks that may stand around an integer: those of ASCII, and all others beyond ASCII. -/
def isIntegerBlank (c : Char) : Bool :=
  isPlainBlank c || (128 ≤ c.toNat && isBlank c)

/-- The value and number of digits, with single underscores between digits skipped; `seen` says
that the character before was a digit. -/
def digitRun (value count : Nat) (seen : Bool) : List Char → Option (Nat × Nat)
  | [] => if seen then some (value, count) else none
  | c :: cs =>
    if c == '_' then
      if seen then digitRun value count false cs else none
    else
      match digitValue? c with
      | some d => digitRun (10 * value + d) (count + 1) true cs
      | none => none

/-- The characters of a text without the blanks around a number. -/
def withoutBlanks (s : String) : List Char :=
  ((s.toList.dropWhile isIntegerBlank).reverse.dropWhile isIntegerBlank).reverse

/-- Whether a text has a minus sign, and the text without a sign. -/
def splitSign (cs : List Char) : Bool × List Char :=
  match cs with
  | '-' :: r => (true, r)
  | '+' :: r => (false, r)
  | r => (false, r)

/-- An integer in base ten with the number of its digits, however many there are. -/
def readDigits? (s : String) : Option (Int × Nat) :=
  let (negative, cs) := splitSign (withoutBlanks s)
  (digitRun 0 0 false cs).map fun (n, count) => (if negative then -(n : Int) else n, count)

/-- An integer in base ten, or `none` when the text is not one or has too many digits. -/
def readInteger? (s : String) : Option Int :=
  match readDigits? s with
  | some (n, count) => if digitLimit < count then none else some n
  | none => none

/-- The value of a digit in a base: those beyond nine are letters. -/
def digitIn? (base : Nat) (c : Char) : Option Nat :=
  let value :=
    if 'a' ≤ c && c ≤ 'z' then some (c.toNat - 87)
    else if 'A' ≤ c && c ≤ 'Z' then some (c.toNat - 55)
    else digitValue? c
  value.filter (· < base)

/-- A text without the letter that marks a base. -/
def withoutMark (base : Nat) (cs : List Char) : List Char :=
  match cs with
  | '0' :: c :: rest =>
    if [(2, 'b'), (8, 'o'), (16, 'x')].contains (base, c.toLower) then rest else cs
  | _ => cs

/-- An integer in a base. -/
def readNumeral? (base : Nat) (s : String) : Option Int :=
  let (negative, cs) := splitSign (withoutBlanks s)
  let cs := withoutMark base cs
  if cs.isEmpty then none
  else
    match cs.mapM (digitIn? base) with
    | some ds =>
      let n := ds.foldl (fun n d => base * n + d) 0
      some (if negative then -(n : Int) else n)
    | none => none

/-- The digits of an integer, or `none` beyond the limit. -/
def integerText? (i : Int) : Option String :=
  if i.natAbs < Nat.pow 10 digitLimit then some (toString i) else none

/-- A run of ASCII digits at the start of a text: its value, its length and what follows. -/
def leadingDigits (cs : List Char) : Nat × Nat × List Char :=
  let ds := cs.takeWhile Char.isDigit
  (ds.foldl (fun n c => 10 * n + (c.toNat - 48)) 0, ds.length, cs.dropWhile Char.isDigit)

/-- Beyond this exponent every positive number is infinite, and below its negative every number
of a single digit is zero. -/
def exponentBound : Int := 400

/-- The value of `digits * 10 ^ exponent`. -/
def scientific (negative : Bool) (digits : Nat) (exponent : Int) : Float :=
  let x :=
    if digits == 0 || exponent + digits.log2 < -exponentBound then 0.0
    else if exponentBound < exponent then 1.0 / 0.0
    else if exponent < 0 then Float.ofScientific digits true (-exponent).toNat
    else Float.ofScientific digits false exponent.toNat
  if negative then -x else x

/-- A decimal exponent: `e` or `E`, an optional sign and digits; nothing at all is zero. -/
def readExponent? : List Char → Option Int
  | [] => some 0
  | e :: cs =>
    if e == 'e' || e == 'E' then
      let (negative, cs) := splitSign cs
      match leadingDigits cs with
      | (n, count, []) => if count == 0 then none else some (if negative then -(n : Int) else n)
      | _ => none
    else none

/-- A decimal: an optional sign, digits with an optional point among them, an optional exponent;
or one of `inf` and `nan`. -/
def readFloat? (s : String) : Option Float :=
  let (negative, cs) := splitSign s.toList
  if cs == "inf".toList then some (if negative then -(1.0 / 0.0) else 1.0 / 0.0)
  else if cs == "nan".toList then some (0.0 / 0.0)
  else
    let (whole, n, cs) := leadingDigits cs
    let (fraction, k, cs) :=
      match cs with
      | '.' :: r => leadingDigits r
      | r => (0, 0, r)
    if n + k == 0 then none
    else (readExponent? cs).map fun e => scientific negative (whole * Nat.pow 10 k + fraction) (e - k)

/-- A digit of any script as one of ASCII. -/
def plainDigit (c : Char) : Char :=
  match digitValue? c with
  | some d => Char.ofNat (48 + d)
  | none => c

/-- A decimal with blanks around it and digits of any script; infinity has two spellings. -/
def readReal? (s : String) : Option Float :=
  let cs := (withoutBlanks s).map fun c => plainDigit c.toLower
  let (negative, digits) := splitSign cs
  if digits == "infinity".toList then some (if negative then -(1.0 / 0.0) else 1.0 / 0.0)
  else readFloat? (String.ofList cs)

example : readNumeral? 16 "1f" = some 31 := by decide +kernel
example : readNumeral? 2 "" = none := by decide +kernel
example : readInteger? " -1_000 " = some (-1000) := by decide +kernel
example : readInteger? "1__0" = none := by decide +kernel
example : readInteger? "१२" = some 12 := by decide +kernel

end StateAtlas
