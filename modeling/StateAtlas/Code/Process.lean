import StateAtlas.Choice
import StateAtlas.Code.Object
import StateAtlas.Program.Attribute
import StateAtlas.Program.Print
import StateAtlas.Search.Program

set_option autoImplicit false

/-!
# Running code

A process runs code objects on a stack of tasks. The topmost task is what runs now; a value, an
exception or the end of an iterator is delivered to the task below. Most tasks are activations of
code; the others remember what a built-in operation does once it has the value it waits for.

## Main definitions

* `StateAtlas.Item` — an item on the stack of an activation.
* `StateAtlas.Activation` — a function, the body of a class or a module that has been entered.
* `StateAtlas.Task` — an activation, or what waits for a value.
* `StateAtlas.Mode` — what a process does next.
* `StateAtlas.Process` — a running program.
-/

namespace StateAtlas

/-- An item on the stack of an activation. -/
inductive Item where
  | value (v : Value)
  /-- Stands where a method would have its receiver. -/
  | null
  | code (index : Nat)
  deriving Inhabited

/-- The value that an item is. -/
def Item.content : Item → Value
  | .value v => v
  | .null | .code _ => .none

/-- A function, the body of a class or a module that has been entered. -/
structure Activation where
  frame : FrameId
  /-- The index of its code. -/
  code : Nat
  /-- The index of the instruction that runs or waits. -/
  current : Nat
  /-- The index of the instruction that comes after it. -/
  next : Nat
  /-- The stack, its top first. -/
  stack : List Item
  /-- The names of the last arguments of the next call. -/
  keywords : List String
  /-- The cells of the variables it shares with other functions. -/
  cells : List (String × Address)
  /-- The cells it has from the functions around it. -/
  closure : List Address
  /-- Whether the next visible instruction is the first one of the call. -/
  entering : Bool
  /-- The number of the suspended function that it continues. -/
  generator : Option Nat
  deriving Inhabited

/-- What is done with all items of an iterator. -/
inductive Collection where
  /-- They are appended to a list, which is the result if it is asked for. -/
  | extend (list : Address) (result : Bool)
  /-- They are pushed, if there are as many. -/
  | unpack (count : Nat)
  | set
  | list
  | tuple
  /-- A value is looked for among them. -/
  | contains (v : Value) (inverted : Bool)
  /-- One of them is chosen. -/
  | choose
  deriving Inhabited

/-- An activation, or what waits for a value. -/
inductive Task where
  | activation (a : Activation)
  /-- A new instance waits until it has been initialized. -/
  | construct (object : Value)
  /-- A class waits until its body has run. -/
  | define (name : String) (parents : List Value) (body : Address)
  /-- A loop waits for the next item; it ends at an offset. -/
  | loop (target : Nat)
  /-- A call for the next item, with what to answer if there is none. -/
  | fetch (fallback : Option Value)
  | collect (iterator : Value) (items : Array Value) (into : Collection)
  /-- An exception waits until it has been made. -/
  | raising
  /-- The report of an exception of a class waits for the text that a method gives. -/
  | report (type method : String)
  /-- A function waits for items of iterators as its arguments. -/
  | map (function : Value) (pending : List Value) (items : List Value)
  deriving Inhabited

/-- A function that can be suspended. -/
inductive Generator where
  | suspended (a : Activation) (handled : Value)
  | running
  | finished
  deriving Inhabited

/-- What a process does next. -/
inductive Mode where
  /-- Go on to the next instruction. -/
  | run
  /-- Wait for leave to execute an instruction. -/
  | waiting
  | execute
  | call (callee : Value) (arguments : List Value) (named : List (String × Value))
  /-- Ask an iterator for its next item. -/
  | ask (iterator : Value)
  /-- Wait for the answer to a request. -/
  | choosing (request : ChoiceRequest Value)
  /-- Deliver a value to the topmost task. -/
  | deliver (v : Value)
  /-- Tell the topmost task that the iterator has no more items. -/
  | exhausted
  /-- An exception arrives at the topmost task. -/
  | unwind (exception : Value)
  /-- The topmost task handles an exception or lets it pass. -/
  | handle (exception : Value)
  | ended (ending : Ending)
  deriving Inhabited

/-- A running program. -/
structure Process where
  scene : Scene
  /-- The module of the program. -/
  module : Address
  /-- The modules that it has imported. -/
  imported : Bindings Address
  /-- The tasks, the topmost first. -/
  tasks : List Task
  /-- The functions that can be suspended, by number. -/
  generators : Array Generator
  /-- The exceptions being handled, those of the innermost suspended function first. -/
  handled : List Value
  mode : Mode
  deriving Inhabited

namespace Process

/-- The heap of a process. -/
def heap (p : Process) : Heap := p.scene.heap

/-- Replaces the heap. -/
def withHeap (p : Process) (h : Heap) : Process := { p with scene := { p.scene with heap := h } }

/-- Allocates an object. -/
def allocate (p : Process) (o : Obj) : Address × Process :=
  let (a, h) := p.heap.allocate o
  (a, p.withHeap h)

/-- Changes a frame. -/
def mapFrame (p : Process) (f : FrameId) (g : Frame → Frame) : Process :=
  { p with scene := { p.scene with frames := p.scene.frames.modify f g } }

/-- Adds a frame. -/
def addFrame (p : Process) (f : Frame) : FrameId × Process :=
  (p.scene.frames.size, { p with scene := { p.scene with frames := p.scene.frames.push f } })

/-- Replaces what the process does next. -/
def going (p : Process) (m : Mode) : Process := { p with mode := m }

/-- Delivers a value. -/
def deliver (p : Process) (v : Value) : Process := p.going (.deliver v)

/-- Adds a task on top. -/
def push (p : Process) (t : Task) : Process := { p with tasks := t :: p.tasks }

/-- Goes on with an activation in front of other tasks. -/
def resume (p : Process) (a : Activation) (rest : List Task) : Process :=
  { p with tasks := .activation a :: rest, mode := .run }

/-- Raises an exception. -/
def throw (p : Process) (r : Raised) : Process :=
  let (e, h) := p.heap.newException r.type r.arguments
  (p.withHeap h).going (.unwind e)

/-- Raises an exception of a built-in class with a text. -/
def fail (p : Process) (type text : String) : Process := p.throw (.ofText type text)

/-- The frame of the innermost activation. -/
def currentFrame (p : Process) : Option FrameId :=
  p.tasks.findSome? fun
    | .activation a => some a.frame
    | _ => none

/-- The innermost exception that is being handled. -/
def topHandled (p : Process) : Value :=
  (p.handled.find? fun v => !v.isNone).getD .none

/-- Replaces the exception that the innermost suspended function, or the program, handles. -/
def setHandled (p : Process) (v : Value) : Process := { p with handled := v :: p.handled.drop 1 }

end Process

namespace Activation

/-- Pushes a value. -/
def push (a : Activation) (v : Value) : Activation := { a with stack := .value v :: a.stack }

/-- Drops items. -/
def drop (a : Activation) (n : Nat) : Activation := { a with stack := a.stack.drop n }

/-- The value that lies below `n` others. -/
def peek (a : Activation) (n : Nat) : Value := (a.stack[n]?.getD .null).content

/-- The top values in the order in which they were pushed. -/
def top (a : Activation) (n : Nat) : List Value := (a.stack.take n).reverse.map Item.content

/-- The offset of the instruction that runs. -/
def offset (a : Activation) (c : CodeObject) : Nat := (c.steps[a.current]?.map CodeStep.offset).getD 0

/-- Jumps to an offset. -/
def jump (a : Activation) (c : CodeObject) (target : Nat) : Activation :=
  { a with next := c.place target }

end Activation

end StateAtlas
