import StateAtlas.Number.Binary

set_option autoImplicit false

/-!
# The shortest decimal of a floating-point number

A floating-point number is the nearest one to every real in an interval around it. Among the
decimals in that interval the one with the fewest digits is written, and of those the one nearest
to the number. If some point of a decimal grid lies in the interval, so does one of the two grid
points next to the number, so it is enough to test these two for one digit, two digits, and so on.

## Main definitions

* `StateAtlas.Shortest.digits` — the shortest digits and their power of ten.
* `StateAtlas.FloatFormat` — where positional notation ends and what is written beside the digits.
* `StateAtlas.FloatFormat.render` — a number in a format.
* `StateAtlas.floatText` — the text of a number in program output.
-/

namespace StateAtlas

namespace Shortest

/-- Whether `m * 2 ^ e < 10 ^ k`. -/
def below (m : Nat) (e k : Int) : Bool :=
  let (num, den) := Binary.quotient m e
  if 0 ≤ k then num < Nat.pow 10 k.toNat * den else num * Nat.pow 10 (-k).toNat < den

/-- The least `k` with `m * 2 ^ e < 10 ^ k`, for a positive `m`: an estimate from the bit length
is at most a few steps away from it. -/
def magnitude (m : Nat) (e : Int) : Int :=
  let estimate := (Nat.log2 m + e) * 30103 / 100000
  ([estimate - 1, estimate, estimate + 1, estimate + 2].find? (below m e ·)).getD (estimate + 3)

/-- The better of the two points next to `m * 2 ^ e` on the grid of multiples of `10 ^ p`, if one
of them reads back. `narrow` says that the gap below the number is half the gap above it; the ends
of the interval belong to it when the mantissa is even. -/
def onGrid? (m : Nat) (e : Int) (narrow : Bool) (p : Int) : Option Nat :=
  let (num, den) := Binary.quotient m e
  let step := Nat.pow 2 e.toNat
  let scale := if 0 ≤ p then 1 else Nat.pow 10 (-p).toNat
  let unit := (if 0 ≤ p then Nat.pow 10 p.toNat else 1) * den * 4
  let value := num * 4 * scale
  let downGap := (if narrow then 1 else 2) * step * scale
  let upGap := 2 * step * scale
  let q := value / unit
  let down := value % unit
  let up := unit - down
  let ends := m % 2 == 0
  let lowHit := down < downGap || (ends && down == downGap)
  let highHit := up < upGap || (ends && up == upGap)
  if lowHit && highHit then
    if down < up then some q
    else if up < down then some (q + 1)
    else if q % 2 == 0 then some q else some (q + 1)
  else if lowHit && q != 0 then some q
  else if highHit then some (q + 1)
  else none

/-- The fewest digits of a positive number that read back, with their power of ten. -/
def digits (m : Nat) (e : Int) : Nat × Int :=
  let narrow := m == Nat.pow 2 52 && e != -1074
  let k := magnitude m e
  match (List.range 17).findSome? fun i =>
      let p := k - (i + 1 : Nat)
      (onGrid? m e narrow p).map (·, p) with
  | some hit => hit
  | none => (m, e)

end Shortest

/-- How a floating-point number is written: positionally while the decimal point falls within
`low < point ≤ high` places after the first digit, with an exponent otherwise. -/
structure FloatFormat where
  low : Int
  high : Int
  /-- Whether a whole number ends in a point and a zero. -/
  pointZero : Bool

namespace FloatFormat

/-- Program output: from a ten-thousandth up to sixteen digits before the point. -/
def output : FloatFormat where
  low := -4
  high := 16
  pointZero := true

/-- The parts of a complex number: as in program output, but a whole part is an integer. -/
def part : FloatFormat where
  low := -4
  high := 16
  pointZero := false

/-- The exponent of scientific notation: a sign and at least two digits. -/
def exponentText (k : Int) : String :=
  let n := toString k.natAbs
  (if k < 0 then "e-" else "e+") ++ (if n.length < 2 then "0" ++ n else n)

/-- Digits with the decimal point after the first `point` of them. -/
def place (f : FloatFormat) (ds : List Char) (point : Int) : String :=
  let n : Int := ds.length
  if f.low < point && point ≤ f.high then
    if point ≤ 0 then
      String.ofList ("0.".toList ++ List.replicate (-point).toNat '0' ++ ds)
    else if n ≤ point then
      String.ofList (ds ++ List.replicate (point - n).toNat '0') ++ (if f.pointZero then ".0" else "")
    else
      String.ofList (ds.take point.toNat ++ '.' :: ds.drop point.toNat)
  else
    let tail := ds.drop 1
    String.ofList (ds.take 1 ++ (if tail.isEmpty then [] else '.' :: tail)) ++ exponentText (point - 1)

/-- The text of a number in a format. -/
def render (f : FloatFormat) (x : Float) : String :=
  match Binary.ofFloat x with
  | .nan => "nan"
  | .infinite negative => if negative then "-inf" else "inf"
  | .finite negative m e =>
    let sign := if negative then "-" else ""
    if m == 0 then sign ++ f.place ['0'] 1
    else
      let (n, p) := Shortest.digits m e
      let all := (toString n).toList
      let ds := (all.reverse.dropWhile (· == '0')).reverse
      sign ++ f.place ds (all.length + p)

end FloatFormat

/-- The text of a floating-point number in program output. -/
def floatText (x : Float) : String := FloatFormat.output.render x

/-- The text of a complex number: the imaginary part alone when the real part is a positive zero,
both parts in parentheses otherwise. -/
def complexText (re im : Float) : String :=
  let imText := FloatFormat.part.render im ++ "j"
  if re.toBits == 0 then imText
  else
    let plus := if imText.startsWith "-" then "" else "+"
    "(" ++ FloatFormat.part.render re ++ plus ++ imText ++ ")"

end StateAtlas
