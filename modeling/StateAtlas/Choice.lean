import StateAtlas.Data.Datum
import StateAtlas.Data.Nth
import StateAtlas.Fault

set_option autoImplicit false

/-!
# Choices

A program asks for a value it leaves open: a truth value, an integer of a range, or an item of a
sequence. The possible values are numbered from zero, in their natural order.

## Main definitions

* `StateAtlas.ChoiceRequest` — what is asked for.
* `StateAtlas.ChoiceRequest.count` — the number of possible values, if there are any.
* `StateAtlas.ChoiceRequest.pick?` — the value of a number.
* `StateAtlas.ChoiceScript` — the answers of a search that follows a list of numbers.
-/

namespace StateAtlas

/-- A request for a value that a program leaves open. -/
inductive ChoiceRequest (α : Type) where
  /-- A truth value. -/
  | boolean
  /-- An integer between two bounds, which belong to the range. -/
  | within (low high : Int)
  /-- An item of a sequence. -/
  | among (items : List α)
  deriving Inhabited

/-- A value that was asked for. -/
inductive Choice (α : Type) where
  | boolean (b : Bool)
  | integer (i : Int)
  | item (a : α)

namespace ChoiceRequest

variable {α : Type}

/-- The number of possible values; an empty range or sequence has none. -/
def count : ChoiceRequest α → Except Fault Int
  | .boolean => .ok 2
  | .within low high =>
    if high < low then .error (.emptyRange low high) else .ok (high - low + 1)
  | .among items => if items.isEmpty then .error .emptySequence else .ok items.length

/-- The value of a number; items may be counted from the end. -/
def pick? (r : ChoiceRequest α) (n : Int) : Option (Choice α) :=
  match r with
  | .boolean => some (.boolean (n != 0))
  | .within low _ => some (.integer (low + n))
  | .among items => (nth? items n).map .item

/-- The only value that can be given, if there is just one. -/
def only? (r : ChoiceRequest α) : Option (Choice α) :=
  match r.count with
  | .ok 1 => r.pick? 0
  | _ => none

/-- A request for an item of a datum: of a sequence, a text or the keys of a mapping. -/
def ofSequence : Datum → Except Fault (ChoiceRequest Datum)
  | .list items | .tuple items | .set _ items => .ok (.among items)
  | .str s => .ok (.among (s.toList.map fun c => .str (String.singleton c)))
  | .dict entries => .ok (.among (entries.map Prod.fst))
  | d => .error (.notIterable d.typeName)

end ChoiceRequest

/-- The answers of a search that follows a list of numbers: those still to be given, and the
numbers of alternatives it has been asked about. -/
structure ChoiceScript where
  choices : List Int
  asked : Array Int
  deriving Inhabited

/-- The next answer of a script. -/
def ChoiceScript.answer {α : Type} (script : ChoiceScript) (r : ChoiceRequest α) :
    Except Fault (Choice α) × ChoiceScript :=
  match r.count with
  | .error f => (.error f, script)
  | .ok n =>
    let script := { script with asked := script.asked.push n }
    match script.choices with
    | [] => (.error .scriptExhausted, script)
    | c :: rest =>
      (match r.pick? c with
        | some v => .ok v
        | none => .error .indexOutOfRange, { script with choices := rest })

end StateAtlas
