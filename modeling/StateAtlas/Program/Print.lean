import StateAtlas.Data.Datum
import StateAtlas.Program.Type

set_option autoImplicit false

/-!
# The texts of values

A value has a text on its own and a text as it stands inside another; both are those of the plain
data that the value holds.

## Main definitions

* `StateAtlas.Heap.describe` — the plain data a value holds.
* `StateAtlas.Heap.shown?`, `StateAtlas.Heap.quoted?` — the two texts of a value; missing if an
  integer in it has too many digits.
* `StateAtlas.Heap.faultText` — the text of an exception; empty if there is none.
-/

namespace StateAtlas

/-- How deep the texts of values may nest. -/
def maxTextDepth : Nat := 1000

namespace Heap

/-- The qualified name of a class with its module. -/
def qualifiedType (h : Heap) (t : Value) : String :=
  let module := h.typeModule t
  if module == "builtins" then h.typeQualname t else module ++ "." ++ h.typeQualname t

/-- The text of the arguments of an exception: those of a key that is missing are quoted, and an
error of the operating system with a number shows it in brackets. -/
def argumentsText? (h : Heap) (type : Value) (arguments : List Datum) : Option String :=
  match arguments with
  | [] => some ""
  | [d] => if h.isSubtype type (.ofType "KeyError") then d.quoted? else d.shown?
  | number :: text :: _ =>
    if h.isSubtype type (.ofType "OSError") && arguments.length == 2 then
      match number.shown?, text.shown? with
      | some n, some t => some ("[Errno " ++ n ++ "] " ++ t)
      | _, _ => none
    else (Datum.tuple arguments).quoted?

/-- The text of the arguments of a call. -/
def callText (name : String) (arguments : List Datum) : String :=
  match (Datum.tuple arguments).quoted?, arguments with
  | some _, [d] => name ++ "(" ++ d.quoted?.getD "" ++ ")"
  | some t, _ => name ++ t
  | none, _ => name ++ "(...)"

/-- The plain data a value holds; `within` are the containers around it. -/
def describe (h : Heap) : Nat → List Address → Value → Datum
  | 0, _, _ => .foreign "object" "..." "..."
  | room + 1, within, v =>
    match v with
    | .none => .null
    | .bool b => .bool b
    | .int i => .int i
    | .float x => .float x
    | .complex re im => .complex re im
    | .str s => .str s
    | .bytes bs => .bytes bs
    | .tuple items => .tuple (items.map (describe h room within))
    | .nan _ number => describe h room within number
    | .derived type (some text) _ => .foreign type text text
    | .derived _ none base => describe h room within base
    | .builtin (.function qualname) =>
      let text := "<built-in function " ++ qualname ++ ">"
      .foreign "builtin_function_or_method" text text
    | .builtin (.type ..) =>
      let text := "<class " ++ Quoted.text (h.qualifiedType v) ++ ">"
      .foreign "type" text text
    | .ref a =>
      let inner := describe h room (a :: within)
      match h.get? a with
      | some (.list items) =>
        if within.contains a then .cycle false else .list (items.toList.map inner)
      | some (.set frozen items) => .set frozen (items.toList.map inner)
      | some (.dict entries) =>
        if within.contains a then .cycle true
        else .dict (entries.toList.map fun (k, v) => (inner k, inner v))
      | some (.exception type arguments _) =>
        let data := arguments.map inner
        match argumentsText? h type data with
        | some text => .foreign (h.typeName type) text (callText (h.typeName type) data)
        | none => .unwritable (h.typeName type)
      | some (.type _) =>
        let text := "<class " ++ Quoted.text (h.qualifiedType v) ++ ">"
        .foreign "type" text text
      | some (.range start stop step) =>
        let text := "range(" ++ toString start ++ ", " ++ toString stop ++
          (if step == 1 then "" else ", " ++ toString step) ++ ")"
        .foreign "range" text text
      | some (.function info) =>
        let text := "<function " ++ info.qualname ++ ">"
        .foreign "function" text text
      | some (.module vs) =>
        let name := ((vs.get? "__name__").bind Value.text?).getD "?"
        let text := "<module " ++ Quoted.text name ++ ">"
        .foreign "module" text text
      | some (.object t _) =>
        let text := "<" ++ h.qualifiedType (.ref t) ++ " object>"
        .foreign (h.typeName (.ref t)) text text
      | _ =>
        let text := "<" ++ h.typeNameOf v ++ " object>"
        .foreign (h.typeNameOf v) text text

/-- The plain data a value holds. -/
def datum (h : Heap) (v : Value) : Datum := h.describe maxTextDepth [] v

/-- The text of a value on its own. -/
def shown? (h : Heap) (v : Value) : Option String := (h.datum v).shown?

/-- The text of a value as it stands inside another. -/
def quoted? (h : Heap) (v : Value) : Option String := (h.datum v).quoted?

/-- The text of an exception; empty if it has none. -/
def faultText (h : Heap) (v : Value) : String := (h.shown? v).getD ""

end Heap

end StateAtlas
