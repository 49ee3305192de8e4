import StateAtlas.Choice
import StateAtlas.Program.Arithmetic
import StateAtlas.Program.Print
import StateAtlas.Script.Command
import StateAtlas.Search.Program

set_option autoImplicit false

/-!
# Scripts as programs

A script runs in one frame, the body of its module, and its variables are those of the module. The
number of the command that runs is no part of its state. Every command is one instruction; the
return from the body is the last one.

## Main definitions

* `StateAtlas.Script` — a script with its name; a greedy one catches everything that a command
  raises, the signal to stop included, and goes on with the next command.
* `StateAtlas.Script.Configuration` — a running script.
* `StateAtlas.Script.program` — the script as a program that can be explored.
-/

namespace StateAtlas

/-- A script with its name. -/
structure Script where
  name : String
  commands : Array Command
  /-- Whether everything that a command raises is caught. -/
  greedy : Bool

namespace Script

/-- What a running script does next. -/
inductive Phase where
  /-- Pause before the next command, or before the return. -/
  | ready
  /-- Wait for leave to run the command. -/
  | paused
  | running
  /-- Wait for the requested value of a variable. -/
  | choosing (name : String) (request : ChoiceRequest Value)
  /-- Wait for the number of an alternative, which a variable is bound to. -/
  | numbering (name : String)
  | ended (ending : Ending)

/-- A running script. -/
structure Configuration where
  scene : Scene
  module : Address
  /-- How often the script has been executed before. -/
  executions : Nat
  /-- How many boundaries it has wished for. -/
  wishes : Nat
  /-- The number of the next command. -/
  next : Nat
  phase : Phase

variable (script : Script)

/-- The configuration before the first command, with the module loaded. -/
def start (executions : Nat) : Configuration :=
  let (a, h) := Heap.empty.plantModule script.name
    [("__file__", .str (script.name ++ ".py")), ("__builtins__", .none)]
  let frame : Frame := {
    globals := a
    name := "<module>"
    qualname := some "<module>"
    file := script.name
    line := 1
    position := 0
    optimized := false
    caller := none
    locals := .variables a }
  { scene := ⟨h, .ofList [(script.name, some a)], #[frame]⟩
    module := a
    executions
    wishes := 0
    next := 0
    phase := .ready }

namespace Configuration

/-- Replaces the heap. -/
def withHeap (c : Configuration) (h : Heap) : Configuration :=
  { c with scene := { c.scene with heap := h } }

/-- The variables of the script. -/
def «variables» (c : Configuration) : Bindings Value := c.scene.heap.variables c.module

/-- Binds a variable. -/
def bind (c : Configuration) (name : String) (v : Value) : Configuration :=
  c.withHeap (c.scene.heap.setVariables c.module (c.variables.set name v))

/-- Goes on with a command. -/
def goTo (c : Configuration) (target : Nat) : Configuration :=
  { c with next := target, phase := .ready }

/-- Goes on with the next command. -/
def advance (c : Configuration) : Configuration := c.goTo (c.next + 1)

end Configuration

/-- How a raised exception ends the script, unless it is greedy. -/
def endingOf (type message : String) : Ending :=
  if type == "SystemExit" then .exit
  else if type == "KeyboardInterrupt" then .interrupted ⟨type, false⟩ message
  else .raised type message

/-- A command raises: a greedy script goes on, any other ends. -/
def throw (c : Configuration) (ending : Ending) : Configuration :=
  if script.greedy then c.advance else { c with phase := .ended ending }

/-- A command raises an exception of a built-in class. -/
def throwRaised (c : Configuration) (r : Raised) : Configuration :=
  let (v, h) := c.scene.heap.newException r.type r.arguments
  script.throw c (endingOf (h.typeName r.type) (h.faultText v))

/-- Goes on with the value of a variable, which must be bound. -/
def withVariable (c : Configuration) (name : String) (k : Value → Configuration) : Configuration :=
  match c.variables.get? name with
  | some v => k v
  | none => script.throwRaised c ⟨.ofType "KeyError", [.str name]⟩

/-- Applies an operator to a variable and a fresh value. -/
def operate (c : Configuration) (op : Operator) (name : String) (operand : Literal) :
    Configuration :=
  script.withVariable c name fun v =>
    let (x, h) := operand.plant c.scene.heap
    match op.apply false h v x with
    | .ok (v, h) => ((c.withHeap h).bind name v).advance
    | .error r => script.throwRaised c r

/-- Asks for the value of a variable. -/
def request (c : Configuration) (name : String) (r : ChoiceRequest Value) : Move Configuration :=
  match r.count with
  | .ok n => .choice n { c with phase := .choosing name r }
  | .error f => .internal (script.throwRaised c (.ofText "ValueError" f.message))

/-- Runs a command. -/
def run (c : Configuration) (command : Command) : Move Configuration :=
  match command with
  | .assign name value =>
    let (v, h) := value.plant c.scene.heap
    .internal ((c.withHeap h).bind name v).advance
  | .add name amount => .internal (script.operate c .add name amount)
  | .reduce name modulus => .internal (script.operate c .mod name modulus)
  | .append name value =>
    .internal <| script.withVariable c name fun v =>
      match v, c.scene.heap.object? v with
      | .ref a, some (.list items) =>
        let (x, h) := value.plant c.scene.heap
        (c.withHeap (h.set a (.list (items.push x)))).advance
      | _, _ =>
        script.throwRaised c (.ofText "AttributeError"
          (Quoted.text (c.scene.heap.typeNameFor v) ++ " object has no attribute 'append'"))
  | .copy name source =>
    .internal (script.withVariable c source fun v => (c.bind name v).advance)
  | .delete name =>
    .internal <| script.withVariable c name fun _ =>
      (c.withHeap (c.scene.heap.setVariables c.module (c.variables.erase name))).advance
  | .chooseBoolean name => script.request c name .boolean
  | .chooseInteger name low high => script.request c name (.within low high)
  | .chooseItem name items =>
    let (vs, h) := Literal.plantAll c.scene.heap items
    script.request (c.withHeap h) name (.among vs)
  | .chooseNumber name options => .choice options { c with phase := .numbering name }
  | .jump target => .internal (c.goTo target)
  | .jumpIfEqual name value target =>
    .internal <| script.withVariable c name fun v =>
      let (x, h) := value.plant c.scene.heap
      if h.equal v x then c.goTo target else c.advance
  | .jumpIfLess name value target =>
    .internal <| script.withVariable c name fun v =>
      let (x, h) := value.plant c.scene.heap
      match Comparison.less.apply h v x with
      | .ok holds => if holds then c.goTo target else c.advance
      | .error r => script.throwRaised c r
  | .jumpIfExecutions count target =>
    .internal (if count ≤ c.executions then c.goTo target else c.advance)
  | .boundary => .internal { c.advance with wishes := c.wishes + 1 }
  | .raise failure text =>
    .internal (script.throwRaised c
      ⟨.ofType failure.typeName, if text.isEmpty then [] else [.str text]⟩)
  | .terminate => .terminate c.advance
  | .finish => .internal (c.goTo script.commands.size)

/-- The instruction that a command or the return from the body is. Its argument is the number of
boundaries that the script has wished for. -/
def instruction (c : Configuration) (returns : Bool) : Instruction where
  opname := if returns then "RETURN_VALUE" else "CALL"
  argument := .int c.wishes
  argumentText := ""
  offset := 0
  frame := 0
  function := c.scene.functionName 0
  isEntry := c.next == 0
  returned := false
  returnValue := .none
  exception := none

/-- What a running script does next. -/
def step (c : Configuration) : Move Configuration :=
  match c.phase with
  | .ready => .instruction (instruction c (script.commands.size ≤ c.next)) { c with phase := .paused }
  | .running =>
    match script.commands[c.next]? with
    | some command => script.run c command
    | none => .effect (.returned 0 .none) { c with phase := .ended .normal }
  | .ended ending => .ended ending c
  | .paused | .choosing .. | .numbering _ => .internal c

/-- Goes on with a value that was asked for. -/
def answer (c : Configuration) (name : String) : Option (Choice Value) → Configuration
  | some (.boolean b) => (c.bind name (.bool b)).advance
  | some (.integer i) => (c.bind name (.int i)).advance
  | some (.item v) => (c.bind name v).advance
  | none => script.throwRaised c (.ofText "IndexError" Fault.indexOutOfRange.message)

/-- Goes on after a reply. A greedy script that is stopped before a command goes on with this
command, and one that is stopped at a choice with the next command. -/
def resume (c : Configuration) (r : Reply) : Configuration :=
  match c.phase, r with
  | .paused, .proceed => { c with phase := .running }
  | .paused, .stop =>
    if script.greedy then { c with phase := .ready } else { c with phase := .ended .stopped }
  | .choosing name request, .choose i => script.answer c name (request.pick? i)
  | .numbering name, .choose i => (c.bind name (.int i)).advance
  | .choosing .., .refuse n | .numbering _, .refuse n =>
    script.throwRaised c (.ofText "ValueError" (Fault.noOption n).message)
  | .choosing .., .stop | .numbering _, .stop => script.throw c .stopped
  | _, _ => c

/-- The script as a program that can be explored. All boundaries of a kind lie at one position. -/
def program : Program Configuration (List Frozen.Mark) where
  start := script.start
  next := script.step
  reply := script.resume
  scene := Configuration.scene
  fingerprint execution c frame boundary :=
    (c.scene.fingerprint frame.toList (some c.module) boundary.frozen).keyOrFault execution

end Script

end StateAtlas
