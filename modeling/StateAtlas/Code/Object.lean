import StateAtlas.Code.Operation

set_option autoImplicit false

/-!
# Code objects

## Main definitions

* `StateAtlas.CodeObject` — the code of a module, of the body of a class or of a function.
* `StateAtlas.CodeObject.place` — the index of the instruction at an offset.
* `StateAtlas.CodeObject.handler?` — the handler of exceptions at an offset.
-/

namespace StateAtlas

/-- An instruction of a code object. -/
structure CodeStep where
  offset : Nat
  opname : String
  operand : Operand
  operation : Operation
  deriving Inhabited

/-- A range of offsets in which exceptions are handled. -/
structure Handler where
  start : Nat
  /-- The first offset after the range. -/
  stop : Nat
  target : Nat
  /-- The number of items that stay on the stack. -/
  depth : Nat
  /-- Whether the offset of the exception is pushed too. -/
  pushesOffset : Bool
  deriving Repr, Inhabited

/-- The code of a module, of the body of a class or of a function. -/
structure CodeObject where
  qualname : String
  firstLine : Nat
  /-- Whether this is a function, whose local variables are its own. -/
  optimized : Bool
  generator : Bool
  argCount : Nat
  keywordOnlyCount : Nat
  /-- Whether further positional arguments, and further keyword arguments, are collected. -/
  collectsArguments : Bool
  collectsKeywords : Bool
  variableNames : List String
  cellNames : List String
  freeNames : List String
  steps : Array CodeStep
  handlers : List Handler
  deriving Inhabited

namespace CodeObject

/-- The last part of the qualified name. -/
def name (c : CodeObject) : String := lastPiece '.' c.qualname

/-- The index of the instruction at an offset. -/
def place (c : CodeObject) (offset : Nat) : Nat :=
  (c.steps.findIdx? (·.offset == offset)).getD c.steps.size

/-- Whether an operation is the start of a function. -/
def isResume : Operation → Bool
  | .resume => true
  | _ => false

/-- The index of the start, before which nothing is visible. -/
def entry (c : CodeObject) : Nat := (c.steps.findIdx? fun s => isResume s.operation).getD 0

/-- Whether the instruction of an index can be seen from outside. -/
def isVisible (c : CodeObject) (index : Nat) : Bool :=
  match c.steps[index]? with
  | some s => c.entry < index && !isResume s.operation
  | none => false

/-- The first handler of exceptions at an offset. -/
def handler? (c : CodeObject) (offset : Nat) : Option Handler :=
  c.handlers.find? fun h => h.start ≤ offset && offset < h.stop

/-- The names of all slots of a function: parameters and local variables, then shared ones. -/
def slotNames (c : CodeObject) : List String :=
  c.variableNames ++ c.cellNames.filter (!c.variableNames.contains ·) ++ c.freeNames

end CodeObject

end StateAtlas
