import StateAtlas.Code.Process

set_option autoImplicit false

/-!
# Variables of running code

A name is looked up in the variables of the frame, then among the global ones, then in the
environment. Functions keep their own variables in slots, and those they share in cells.

## Main definitions

* `StateAtlas.environment?` — the value that every program finds under a name.
* `StateAtlas.Process.loadName`, `StateAtlas.Process.storeName`, `StateAtlas.Process.deleteName` —
  variables of a module or of the body of a class.
* `StateAtlas.Process.loadSlot`, `StateAtlas.Process.setSlot`, `StateAtlas.Process.deleteSlot` —
  variables of a function.
* `StateAtlas.Process.loadShared`, `StateAtlas.Process.makeCell`, `StateAtlas.Process.copyCells` —
  shared variables.
-/

namespace StateAtlas

/-- The functions that every program finds in its environment. -/
def environmentFunctions : List String := ["print", "len", "next", "setattr", "__build_class__"]

/-- The value that every program finds under a name. -/
def environment? (name : String) : Option Value :=
  if environmentFunctions.contains name then some (.builtin (.function name))
  else if name == "object" || (Bindings.find? name builtinParents).isSome then some (.ofType name)
  else if name == "EnvironmentError" || name == "IOError" then some (.ofType "OSError")
  else none

/-- The exception for a name without a value. -/
def unknownName (name : String) : Raised :=
  .ofText "NameError" ("name " ++ Quoted.text name ++ " is not defined")

/-- The exception for a variable of a function that has no value. -/
def unboundLocal (name : String) : Raised :=
  .ofText "UnboundLocalError" ("cannot access local variable " ++ Quoted.text name ++
    " where it is not associated with a value")

/-- The exception for a variable of a surrounding function that has no value. -/
def unboundFree (name : String) : Raised :=
  .ofText "NameError" ("cannot access free variable " ++ Quoted.text name ++
    " where it is not associated with a value in enclosing scope")

namespace Process

/-! ### Names -/

/-- The place of the global variables of a frame. -/
def globals (p : Process) (f : FrameId) : Address :=
  match p.scene.frame? f with
  | some fr => fr.globals
  | none => p.module

/-- The place of the variables of a module or of the body of a class. -/
def namespace? (p : Process) (f : FrameId) : Option Address :=
  match p.scene.frame? f with
  | some fr =>
    match fr.locals with
    | .variables a => some a
    | .slots .. => none
  | none => none

/-- The value of a global name. -/
def loadGlobal (p : Process) (f : FrameId) (name : String) : Except Raised Value :=
  match (p.heap.variables (p.globals f)).get? name, environment? name with
  | some v, _ | none, some v => .ok v
  | none, none => .error (unknownName name)

/-- The value of a name. -/
def loadName (p : Process) (f : FrameId) (name : String) : Except Raised Value :=
  match (p.namespace? f).bind fun a => (p.heap.variables a).get? name with
  | some v => .ok v
  | none => p.loadGlobal f name

/-- Binds a name at a place. -/
def bindAt (p : Process) (a : Address) (name : String) (v : Value) : Process :=
  p.withHeap (p.heap.setVariables a ((p.heap.variables a).set name v))

/-- Unbinds a name at a place. -/
def unbindAt (p : Process) (a : Address) (name : String) : Except Raised Process :=
  if (p.heap.variables a).contains name then
    .ok (p.withHeap (p.heap.setVariables a ((p.heap.variables a).erase name)))
  else .error (unknownName name)

/-- Binds a name. -/
def storeName (p : Process) (f : FrameId) (name : String) (v : Value) : Process :=
  p.bindAt ((p.namespace? f).getD (p.globals f)) name v

/-- Unbinds a name. -/
def deleteName (p : Process) (f : FrameId) (name : String) : Except Raised Process :=
  p.unbindAt ((p.namespace? f).getD (p.globals f)) name

/-! ### Slots -/

/-- The slot of a variable of a function. -/
def slot (p : Process) (f : FrameId) (name : String) : Slot :=
  match p.scene.frame? f with
  | some fr =>
    match fr.locals with
    | .slots names values => ((names.findIdx? (· == name)).bind (values[·]?)).getD .unbound
    | .variables _ => .unbound
  | none => .unbound

/-- Replaces the slot of a variable of a function. -/
def setSlot (p : Process) (f : FrameId) (name : String) (s : Slot) : Process :=
  p.mapFrame f fun fr =>
    match fr.locals with
    | .slots names values =>
      match names.findIdx? (· == name) with
      | some i => { fr with locals := .slots names (values.setIfInBounds i s) }
      | none => fr
    | .variables _ => fr

/-- The value of a variable of a function. -/
def loadSlot (p : Process) (f : FrameId) (name : String) : Except Raised Value :=
  match p.scene.slotValue? (p.slot f name) with
  | some v => .ok v
  | none => .error (unboundLocal name)

/-- Unbinds a variable of a function. -/
def deleteSlot (p : Process) (f : FrameId) (name : String) : Except Raised Process :=
  match p.slot f name with
  | .value _ => .ok (p.setSlot f name .unbound)
  | _ => .error (unboundLocal name)

/-! ### Cells -/

/-- The content of a cell. -/
def cellContent? (p : Process) (a : Address) : Option Value := p.scene.slotValue? (.cell a)

/-- The exception for a shared variable that has no value. -/
def unboundShared (c : CodeObject) (name : String) : Raised :=
  if c.freeNames.contains name then unboundFree name else unboundLocal name

/-- The value of a shared variable. -/
def loadShared (p : Process) (c : CodeObject) (a : Activation) (name : String) :
    Except Raised Value :=
  match (Bindings.find? name a.cells).bind p.cellContent? with
  | some v => .ok v
  | none => .error (unboundShared c name)

/-- Replaces the content of the cell of a shared variable. -/
def setShared (p : Process) (a : Activation) (name : String) (v : Option Value) : Process :=
  match Bindings.find? name a.cells with
  | some cell => p.withHeap (p.heap.set cell (.cell v))
  | none => p

/-- Unbinds a shared variable. -/
def deleteShared (p : Process) (c : CodeObject) (a : Activation) (name : String) :
    Except Raised Process :=
  match p.loadShared c a name with
  | .ok _ => .ok (p.setShared a name none)
  | .error r => .error r

/-- Puts a variable into a new cell. -/
def makeCell (p : Process) (a : Activation) (name : String) : Activation × Process :=
  let content :=
    match p.slot a.frame name with
    | .value v => some v
    | _ => none
  let (cell, p) := p.allocate (.cell content)
  ({ a with cells := (name, cell) :: a.cells }, p.setSlot a.frame name (.cell cell))

/-- Takes over the cells of the functions around. -/
def copyCells (p : Process) (c : CodeObject) (a : Activation) : Activation × Process :=
  let pairs := c.freeNames.zip a.closure
  ({ a with cells := pairs ++ a.cells },
    pairs.foldl (fun p e => p.setSlot a.frame e.1 (.cell e.2)) p)

end Process

end StateAtlas
