import StateAtlas.Number.Decimal
import StateAtlas.Number.Shortest
import StateAtlas.Text.Quoted

set_option autoImplicit false

/-!
# Data

A datum is a finite piece of plain data: what a configuration document holds, and what the value
of a program looks like when it is printed.

## Main definitions

* `StateAtlas.Datum` — scalars, sequences, sets and mappings.
* `StateAtlas.Datum.quoted?` — the text of a datum as it stands inside another.
* `StateAtlas.Datum.shown?` — the text of a datum on its own: text is not quoted.

Both texts are missing when the datum holds an integer with too many digits, or data of another
type that has none.
-/

namespace StateAtlas

/-- A finite piece of plain data. -/
inductive Datum where
  | null
  | bool (b : Bool)
  | int (i : Int)
  | float (x : Float)
  | complex (re im : Float)
  | str (s : String)
  | bytes (bs : List UInt8)
  | list (items : List Datum)
  | tuple (items : List Datum)
  | set (frozen : Bool) (items : List Datum)
  | dict (entries : List (Datum × Datum))
  /-- A sequence (or mapping) that contains itself, where it occurs again. -/
  | cycle (mapping : Bool)
  /-- Data of another type, known by its two texts. -/
  | foreign (type shown quoted : String)
  /-- Data of another type that has neither text. -/
  | unwritable (type : String)
  deriving Inhabited

namespace Datum

/-- The name of the type of a datum. -/
def typeName : Datum → String
  | .null => "NoneType"
  | .bool _ => "bool"
  | .int _ => "int"
  | .float _ => "float"
  | .complex .. => "complex"
  | .str _ => "str"
  | .bytes _ => "bytes"
  | .list _ => "list"
  | .tuple _ => "tuple"
  | .set frozen _ => if frozen then "frozenset" else "set"
  | .dict _ => "dict"
  | .cycle mapping => if mapping then "dict" else "list"
  | .foreign type .. | .unwritable type => type

/-- Whether a datum counts as absent where a default may replace it: nothing, zero, or empty. -/
def isVoid : Datum → Bool
  | .null => true
  | .bool b => !b
  | .int i => i == 0
  | .float x => x == 0.0
  | .complex re im => re == 0.0 && im == 0.0
  | .str s => s.isEmpty
  | .bytes bs => bs.isEmpty
  | .list items | .tuple items | .set _ items => items.isEmpty
  | .dict entries => entries.isEmpty
  | .cycle _ | .foreign .. | .unwritable _ => false

/-- An opening brace. -/
def openBrace : String := "\x7b"

/-- A closing brace. -/
def closeBrace : String := "\x7d"

/-- The texts of the items of a tuple: a single one is followed by a comma. -/
def tupleText (items : List String) : String :=
  match items with
  | [one] => "(" ++ one ++ ",)"
  | _ => "(" ++ String.intercalate ", " items ++ ")"

/-- The texts of the members of a set. -/
def setText (frozen : Bool) (items : List String) : String :=
  let body := openBrace ++ String.intercalate ", " items ++ closeBrace
  if frozen then (if items.isEmpty then "frozenset()" else "frozenset(" ++ body ++ ")")
  else if items.isEmpty then "set()" else body

mutual

/-- The text of a datum as it stands inside another. -/
def quoted? : Datum → Option String
  | .null => some "None"
  | .bool b => some (if b then "True" else "False")
  | .int i => integerText? i
  | .float x => some (floatText x)
  | .complex re im => some (complexText re im)
  | .str s => some (Quoted.text s)
  | .bytes bs => some (Quoted.bytes bs)
  | .list items => (quotedItems? items).map fun ts => "[" ++ String.intercalate ", " ts ++ "]"
  | .tuple items => (quotedItems? items).map tupleText
  | .set frozen items => (quotedItems? items).map (setText frozen)
  | .dict entries =>
    (quotedEntries? entries).map fun ts => openBrace ++ String.intercalate ", " ts ++ closeBrace
  | .cycle mapping => some (if mapping then openBrace ++ "..." ++ closeBrace else "[...]")
  | .foreign _ _ quoted => some quoted
  | .unwritable _ => none

/-- The texts of data as they stand inside another. -/
def quotedItems? : List Datum → Option (List String)
  | [] => some []
  | d :: ds =>
    match quoted? d, quotedItems? ds with
    | some t, some ts => some (t :: ts)
    | _, _ => none

/-- The texts of the entries of a mapping. -/
def quotedEntries? : List (Datum × Datum) → Option (List String)
  | [] => some []
  | (k, v) :: es =>
    match quoted? k, quoted? v, quotedEntries? es with
    | some kt, some vt, some ts => some ((kt ++ ": " ++ vt) :: ts)
    | _, _, _ => none

end

/-- The text of a datum on its own. -/
def shown? : Datum → Option String
  | .str s => some s
  | .foreign _ shown _ => some shown
  | d => d.quoted?

end Datum

end StateAtlas
