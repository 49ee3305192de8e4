import StateAtlas.Fault
import StateAtlas.Number.Decimal

set_option autoImplicit false

/-!
# Colours of labels

The first twelve labels take the slots of a twelve-colour scheme. Later ones get a colour of three
channels, each a sine wave over the index with a phase of its own, so that neighbouring indices
lie far apart on the colour wheel.

## Main definitions

* `StateAtlas.Color.scheme`, `StateAtlas.Color.paletteSize` — the scheme and its size.
* `StateAtlas.Color.ofIndex` — the colour of an index.
* `StateAtlas.Color.text` — the colour of a registry index.
-/

namespace StateAtlas

namespace Color

/-- The number of slots of the colour scheme. -/
def paletteSize : Nat := 12

/-- The name of the colour scheme. -/
def scheme : String := "set312"

/-- The step of the waves from one index to the next. -/
def frequency : Float := 2.4

/-- Two hexadecimal digits of a number below 256. -/
def hexByte (n : Nat) : String :=
  String.ofList [Nat.digitChar (n / 16), Nat.digitChar (n % 16)]

/-- One channel: the wave around 128, rounded to the nearest byte. -/
def channel (x phase : Float) : Except Fault String :=
  let angle := frequency * x + phase
  match Binary.ofFloat angle with
  | .infinite _ => .error .outsideDomain
  | _ =>
    let wave := angle.sin * 127.0 + 128.0
    let value := ((Binary.ofFloat wave).round?).getD 0
    .ok (hexByte (min 255 (max 0 value)).toNat)

/-- The colour of an index: a slot of the scheme, or three channels. -/
def ofIndex (index : Int) : Except Fault String :=
  if index < paletteSize then
    match integerText? (index + 1) with
    | some slot => .ok slot
    | none => .error .integerTooLong
  else
    match floatOfInt? (index - paletteSize) with
    | none => .error .integerBeyondFloat
    | some x =>
      match channel x 0.0, channel x 2.0, channel x 4.0 with
      | .ok r, .ok g, .ok b => .ok ("#" ++ r ++ g ++ b)
      | .error f, _, _ | _, .error f, _ | _, _, .error f => .error f

/-- The colour of a registry index; registries stay far below the indices without a colour. -/
def text (index : Nat) : String :=
  match ofIndex index with
  | .ok s => s
  | .error _ => ""

end Color

end StateAtlas
