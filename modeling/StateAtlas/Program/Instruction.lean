import StateAtlas.Program.Scene

set_option autoImplicit false

/-!
# Instructions

An instruction is one step of a program as the search observes it: the operation, the frame that
executes it, and what became known of its effect once it had run.

## Main definitions

* `StateAtlas.Instruction` — an instruction about to run, or just run.
* `StateAtlas.Instruction.storedNames`, `StateAtlas.Instruction.deletedNames` — the local names it
  binds and unbinds.
* `StateAtlas.Instruction.storedField?` — the attribute it writes.
* `StateAtlas.Effect` — what becomes known of an instruction while it runs.
-/

namespace StateAtlas

/-- The name of a class: its module and its qualified name. -/
structure TypeName where
  module : String
  qualname : String
  deriving DecidableEq, Repr, Inhabited

/-- The name a class goes by: that of a built-in class stands alone. -/
def TypeName.text (t : TypeName) : String :=
  if t.module = "builtins" then t.qualname else t.module ++ "." ++ t.qualname

/-- One step of a program. -/
structure Instruction where
  opname : String
  argument : Value
  /-- The written form of the argument. -/
  argumentText : String
  offset : Int
  frame : FrameId
  /-- The qualified name of the function that executes it. -/
  function : String
  /-- Whether it is the first one of a call. -/
  isEntry : Bool
  /-- Whether it returned from its frame, and the value it returned. -/
  returned : Bool
  returnValue : Value
  /-- The class of the exception it raised. -/
  exception : Option TypeName
  deriving Inhabited

namespace Instruction

/-- Whether the operation returns from its frame. -/
def isReturn (i : Instruction) : Bool := i.opname == "RETURN_VALUE" || i.opname == "RETURN_CONST"

/-- Whether the operation raises an exception explicitly. -/
def isRaise (i : Instruction) : Bool := i.opname == "RAISE_VARARGS"

/-- The operations that bind one local name. -/
def storeOps : List String := ["STORE_FAST", "STORE_FAST_MAYBE_NULL", "STORE_DEREF", "STORE_NAME"]

/-- The operations that unbind one local name. -/
def deleteOps : List String := ["DELETE_FAST", "DELETE_DEREF", "DELETE_NAME"]

/-- The local names an instruction binds. -/
def storedNames (i : Instruction) : List Value :=
  if storeOps.contains i.opname then [i.argument]
  else
    match i.opname, i.argument.content with
    | "STORE_FAST_STORE_FAST", .tuple items => items
    | "STORE_FAST_LOAD_FAST", .tuple items => items.take 1
    | _, _ => []

/-- The local names an instruction unbinds. -/
def deletedNames (i : Instruction) : List Value :=
  if deleteOps.contains i.opname then [i.argument] else []

/-- Whether a name is among values. -/
def names (values : List Value) (name : String) : Bool :=
  values.any fun v => v.text? == some name

/-- Whether an instruction binds a local name. -/
def stores (i : Instruction) (name : String) : Bool := names i.storedNames name

/-- Whether an instruction unbinds a local name. -/
def deletes (i : Instruction) (name : String) : Bool := names i.deletedNames name

/-- The owner and the name of the attribute an instruction writes. The owner is a module or a
class; it is missing where the object is known only when the instruction runs. -/
def storedField? (i : Instruction) (s : Scene) : Option (Option String × Value) :=
  match i.opname with
  | "STORE_GLOBAL" => some (some (s.moduleName i.frame), i.argument)
  | "STORE_NAME" => some (some (s.owner i.frame), i.argument)
  | "STORE_ATTR" => some (none, i.argument)
  | _ => none

/-- The text of an instruction. -/
def text (i : Instruction) : String :=
  let base := i.function ++ "@" ++ toString i.offset ++ " " ++ i.opname
  if i.argumentText.isEmpty then base else base ++ " " ++ i.argumentText

end Instruction

/-- What becomes known of an instruction while it runs. -/
inductive Effect where
  /-- A frame was left with a value. -/
  | returned (frame : FrameId) (value : Value)
  /-- An exception of some class was raised in a frame. -/
  | raised (frame : FrameId) (type : TypeName)

/-- Records an effect on the instruction that ran last: a return only on an instruction that
returns, an exception only the first time, and both only in the frame of the instruction. -/
def Instruction.apply (i : Instruction) : Effect → Instruction
  | .returned frame value =>
    if i.frame == frame && i.isReturn then { i with returned := true, returnValue := value } else i
  | .raised frame type =>
    if i.frame == frame && i.exception.isNone then { i with exception := some type } else i

end StateAtlas
