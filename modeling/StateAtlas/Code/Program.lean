import StateAtlas.Code.Execute

set_option autoImplicit false

/-!
# Code as a program that can be explored

The code objects of a program, the first of which is its module, run as one process. The search
sees every instruction but those before the start of a function; it sees choices where the program
asks for a value, and prints where the program prints.

## Main definitions

* `StateAtlas.CodeProgram` — the code of a program with its name.
* `StateAtlas.CodeProgram.program` — the code as a program that can be explored.

## Design

Pausing, executing, delivering and unwinding are modes of one process, so that one move is one
case distinction and needs no fuel.
-/

namespace StateAtlas

/-- The code of a program with its name; the first code object is its module. -/
structure CodeProgram where
  name : String
  codes : Array CodeObject
  deriving Inhabited

namespace CodeProgram

variable (source : CodeProgram)

/-- The name of the file of the program. -/
def file : String := source.name ++ ".py"

/-- The process before the first instruction, with the module loaded. -/
def start : Process :=
  let (a, h) := Heap.empty.plantModule source.name
    [("__file__", .str source.file), ("__builtins__", .none)]
  let p : Process := {
    scene := ⟨h, .ofList [(source.name, some a)], #[]⟩
    module := a
    imported := .empty
    tasks := []
    generators := #[]
    handled := [.none]
    mode := .ended .normal }
  match source.codes[0]? with
  | some c => p.start c 0 source.file a [] (.variables a)
  | none => p

/-- The instruction about to run in an activation. -/
def instruction (p : Process) (a : Activation) (step : CodeStep) : Instruction where
  opname := step.opname
  argument := step.operand.value
  argumentText := ""
  offset := step.offset
  frame := a.frame
  function := p.scene.functionName a.frame
  isEntry := a.entering
  returned := false
  returnValue := .none
  exception := none

/-- Executes the current instruction of the topmost activation. -/
def execute (p : Process) : Move Process :=
  match p.tasks with
  | .activation a :: rest =>
    match source.codes[a.code]? with
    | some c =>
      match c.steps[a.current]? with
      | some step =>
        CodeContext.execute ⟨source.codes, source.file, p, c, a, rest⟩ step.operation
      | none => .internal (p.going (.deliver .none))
    | none => .internal (p.going (.ended .normal))
  | _ => .internal (p.going (.ended .normal))

/-- Goes on to the next instruction: pauses before it if it can be seen. -/
def advance (p : Process) : Move Process :=
  match p.tasks with
  | .activation a :: rest =>
    let current := { a with current := a.next, next := a.next + 1 }
    match (source.codes[a.code]?).bind fun c => (c.steps[a.next]?).map (c, ·) with
    | some (c, step) =>
      if c.isVisible a.next then
        let p := p.mapFrame a.frame fun fr => { fr with position := step.offset }
        .instruction (instruction p a step)
          { p with
              tasks := .activation { current with entering := false } :: rest
              mode := .waiting }
      else .internal { p with tasks := .activation current :: rest, mode := .execute }
    | none => .internal { p with tasks := rest, mode := .deliver .none }
  | _ => .internal (p.going (.ended .normal))

/-- The name of the class of an exception. -/
def exceptionName (p : Process) (e : Value) : TypeName :=
  let type := p.heap.typeOf e
  ⟨p.heap.typeModule type, p.heap.typeQualname type⟩

/-- An exception arrives at the topmost task. An activation shows it as the effect of its
instruction. An exception in the midst of a report leaves the run. -/
def unwind (p : Process) (e : Value) : Move Process :=
  match p.tasks with
  | [] => .internal (p.leaveBy e)
  | .report .. :: _ => .internal (p.going (.ended (p.departure e)))
  | .activation a :: _ => .effect (.raised a.frame (exceptionName p e)) (p.going (.handle e))
  | _ => .internal (p.pass e)

/-- What a process does next. -/
def step (p : Process) : Move Process :=
  match p.mode with
  | .run => source.advance p
  | .waiting | .choosing _ => .internal p
  | .execute => source.execute p
  | .call callee arguments named => p.call source.codes source.file callee arguments named
  | .ask iterator => .internal (p.ask iterator)
  | .deliver v => .internal (p.receive v)
  | .exhausted => p.receiveEnd source.codes
  | .unwind e => unwind p e
  | .handle e => .internal (p.handle source.codes e)
  | .ended ending => .ended ending p

/-- Delivers a value that was asked for. -/
def answer (p : Process) : Option (Choice Value) → Process
  | some (.boolean b) => p.deliver (.bool b)
  | some (.integer i) => p.deliver (.int i)
  | some (.item v) => p.deliver v
  | none => p.fail "IndexError" Fault.indexOutOfRange.message

/-- Goes on after a reply. -/
def resume (p : Process) (r : Reply) : Process :=
  match p.mode, r with
  | .waiting, .proceed => p.going .execute
  | .waiting, .stop | .choosing _, .stop => p.throw ⟨.stopType, []⟩
  | .choosing request, .choose i => answer p (request.pick? i)
  | .choosing _, .refuse n => p.fail "ValueError" (Fault.noOption n).message
  | _, _ => p

/-- The code as a program that can be explored. -/
def program : Program Process (List Frozen.Mark) where
  start _ := source.start
  next := source.step
  reply := resume
  scene := Process.scene
  fingerprint execution p frame boundary :=
    (p.scene.fingerprint (p.scene.programFrames frame source.file) (some p.module)
      boundary.frozen).keyOrFault execution

end CodeProgram

end StateAtlas
