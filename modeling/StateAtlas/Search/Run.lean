import StateAtlas.Search.State

set_option autoImplicit false

/-!
# Running a search

The search executes the program again and again from its start. An execution first repeats the
choices that lead to the last choice on the path, without a word to the listeners, and from there
on follows first alternatives to the end of a path. Then the search goes back to the last choice
with an alternative left; when there is none, it is over.

## Main definitions

* `StateAtlas.Walk` — what the search knows of the current execution.
* `StateAtlas.Stage` — where a search stands.
* `StateAtlas.Exploration.step` — one move of the search.
* `StateAtlas.Exploration.run` — as many moves as fuel allows.

## Design

One function makes one move, so that every statement about all runs is an invariant of that
function. Fuel appears in `run` alone; a search that runs out of it has no outcome.
-/

namespace StateAtlas

/-- What the search knows of the current execution. -/
structure Walk where
  /-- The number of the execution. -/
  execution : Nat
  /-- The frame of the last instruction. -/
  frame : Option FrameId
  /-- The last instruction that ran. -/
  previous : Option Instruction
  /-- The path is over; what the program still does is not looked at. -/
  stopping : Bool
  /-- The failure of a listener or of a fingerprint, kept until the program has been left. -/
  failure : Option Fault
  /-- The choices still to be repeated. -/
  replay : List Nat
  /-- The number of choices to be repeated from the start. -/
  replayLength : Nat
  deriving Inhabited

/-- How a search ends. -/
inductive Exit where
  | completed
  /-- A listener failed, or a state had no fingerprint. -/
  | failed (f : Fault)
  /-- A signal to the whole run left the program, or an exception of which no report could be made. -/
  | interrupted (type : ExceptionClass) (message : String)
  deriving DecidableEq, Repr

/-- Where a search stands. -/
inductive Stage (σ : Type) where
  /-- Before the first notice. -/
  | waiting
  /-- Before an execution. -/
  | launching
  | executing (s : σ) (w : Walk)
  | ended (e : Exit)

/-- A search with the place where it stands and what the program has printed. -/
structure Exploration (σ L κ : Type) where
  search : Search L κ
  stage : Stage σ
  printed : Array String

namespace Exploration

variable {σ L κ : Type} [DecidableEq κ] (P : Program σ κ) (A : Audience L)

/-- A search that has not begun. -/
def ofSearch (s : Search L κ) : Exploration σ L κ := ⟨s, .waiting, #[]⟩

/-- The walk at the start of an execution. -/
def newWalk (s : Search L κ) : Walk where
  execution := s.paths
  frame := none
  previous := none
  stopping := false
  failure := none
  replay := s.replay
  replayLength := s.replay.length

/-- Delivers the last notice. -/
def finish (s : Search L κ) : Search L κ × Stage σ :=
  match s.notify A s.outside none .finished with
  | (s, some f) => (s, .ended (.failed f))
  | (s, none) => (s, .ended .completed)

/-- Delivers the first notice. -/
def begin (s : Search L κ) : Search L κ × Stage σ :=
  match s.notify A s.outside none .started with
  | (s, some f) => (s, .ended (.failed f))
  | (s, none) => (s, .launching)

/-- Starts an execution, unless the search is terminated. -/
def launch (s : Search L κ) : Search L κ × Stage σ :=
  if s.terminated then finish A s
  else ({ s with breakReason := none }, .executing (P.start s.paths) (newWalk s))

/-- Ends the path by a signal inside the program. -/
def stopPath (s : Search L κ) (p : σ) (w : Walk) (failure : Option Fault) :
    Search L κ × Stage σ :=
  (s, .executing (P.reply p .stop) { w with stopping := true, failure })

/-- Tells the listeners that the last instruction has run, and reaches a boundary if one of them
wants it. -/
def concludeStep (s : Search L κ) (p : σ) (w : Walk) (i : Instruction) :
    Search L κ × Progress :=
  match w.previous with
  | none => (s, .onward)
  | some executed =>
    match { s with breakReason := none }.notify A (P.scene p) w.frame
        (.executed executed (some i)) with
    | (s, some f) => (s, .failed f)
    | (s, none) =>
      if s.breakReason.isSome then
        { s with breakReason := none }.reach A (P.scene p) w.frame .requested
          (P.fingerprint w.execution p w.frame .requested)
      else (s, .onward)

/-- An instruction is about to run. -/
def onInstruction (s : Search L κ) (p : σ) (w : Walk) (i : Instruction) : Search L κ × Stage σ :=
  if w.stopping then (s, .executing (P.reply p .proceed) w)
  else
    let w := { w with frame := some i.frame }
    if !w.replay.isEmpty then
      (s, .executing (P.reply p .proceed) { w with previous := some i })
    else
      match concludeStep P A s p w i with
      | (s, .failed f) => stopPath P s p w (some f)
      | (s, .halt) => stopPath P s p w none
      | (s, .onward) =>
        match s.notify A (P.scene p) w.frame (.executing i) with
        | (s, some f) => stopPath P s p w (some f)
        | (s, none) =>
          if s.terminated then stopPath P s p w none
          else (s, .executing (P.reply p .proceed) { w with previous := some i })

/-- The program is at a choice. -/
def onChoice (s : Search L κ) (p : σ) (w : Walk) (options : Int) : Search L κ × Stage σ :=
  if options < 1 then (s, .executing (P.reply p (.refuse options)) w)
  else if w.stopping then (s, .executing (P.reply p .stop) w)
  else
    match w.replay with
    | c :: rest =>
      let w := { w with replay := rest }
      if rest.isEmpty then
        match s.notify A (P.scene p) w.frame .restored with
        | (s, some f) => stopPath P s p w (some f)
        | (s, none) =>
          if s.terminated then stopPath P s p w none
          else (s, .executing (P.reply p (.choose c)) w)
      else (s, .executing (P.reply p (.choose c)) w)
    | [] =>
      let b := Boundary.choice options.toNat
      match s.reach A (P.scene p) w.frame b (P.fingerprint w.execution p w.frame b) with
      | (s, .failed f) => stopPath P s p w (some f)
      | (s, .halt) => stopPath P s p w none
      | (s, .onward) => (s, .executing (P.reply p (.choose 0)) w)

/-- The program ended on its own: delivers the last instruction and reaches the end state. -/
def finishPath (s : Search L κ) (p : σ) (w : Walk) : Search L κ × Option Fault :=
  let concluded :=
    match w.previous with
    | none => (s, none)
    | some executed =>
      { s with breakReason := none }.notify A (P.scene p) none (.executed executed none)
  match concluded with
  | (s, some f) => (s, some f)
  | (s, none) =>
    let s := { s with breakReason := none }
    if s.terminated then (s, none)
    else
      match s.reach A (P.scene p) none .finished (P.fingerprint w.execution p none .finished) with
      | (s, .failed f) => (s, some f)
      | (s, _) => (s, none)

/-- Counts an execution and goes back, or ends the search. -/
def afterPath (s : Search L κ) : Search L κ × Stage σ :=
  let s := { s with paths := s.paths + 1 }
  if s.terminated then finish A s
  else
    match s.backtrack A with
    | (s, .failed f) => (s, .ended (.failed f))
    | (s, .done) => finish A s
    | (s, .resume) => (s, .launching)

/-- The report of an exception that left the program. -/
def raisedReport (name type message : String) : LogRecord :=
  ⟨.warning, "[SEARCH] " ++ name ++ " raised " ++ type ++ ": " ++ message⟩

/-- The report of an execution that ended before it had repeated all choices. -/
def shortReport (name : String) (choices : Nat) : LogRecord :=
  ⟨.warning, "[SEARCH] " ++ name ++ " ended before replaying " ++ toString choices ++
    " choices; is the program deterministic?"⟩

/-- The execution ended. A signal to the whole run leaves the modules of the program loaded. -/
def onEnd (s : Search L κ) (p : σ) (w : Walk) (ending : Ending) : Search L κ × Stage σ :=
  match ending with
  | .interrupted type message =>
    ({ s with outside := P.scene p }, .ended (.interrupted type message))
  | _ =>
    let s :=
      match ending with
      | .raised type message => s.report A (raisedReport s.name type message)
      | _ => s
    match w.failure with
    | some f => (s, .ended (.failed f))
    | none =>
      if w.stopping || ending = .stopped then afterPath A s
      else if !w.replay.isEmpty then
        afterPath A (s.report A (shortReport s.name w.replayLength))
      else
        match finishPath P A s p w with
        | (s, some f) => (s, .ended (.failed f))
        | (s, none) => afterPath A s

/-- One move of the search. -/
def step (x : Exploration σ L κ) : Exploration σ L κ :=
  let ⟨s, stage, printed⟩ := x
  match stage with
  | .waiting => let (s, stage) := begin A s; ⟨s, stage, printed⟩
  | .launching => let (s, stage) := launch P A s; ⟨s, stage, printed⟩
  | .ended e => ⟨s, .ended e, printed⟩
  | .executing p w =>
    match P.next p with
    | .internal p => ⟨s, .executing p w, printed⟩
    | .print text p => ⟨s, .executing p w, printed.push text⟩
    | .effect e p =>
      if w.stopping then ⟨s, .executing p w, printed⟩
      else ⟨s, .executing p { w with previous := w.previous.map (·.apply e) }, printed⟩
    | .terminate p => ⟨{ s with terminated := true }, .executing p w, printed⟩
    | .instruction i p => let (s, stage) := onInstruction P A s p w i; ⟨s, stage, printed⟩
    | .choice options p => let (s, stage) := onChoice P A s p w options; ⟨s, stage, printed⟩
    | .ended ending p => let (s, stage) := onEnd P A s p w ending; ⟨s, stage, printed⟩

/-- As many moves as the fuel allows, up to the end of the search; with the way it ended, if it
did. -/
def run : Nat → Exploration σ L κ → Exploration σ L κ × Option Exit
  | 0, x => (x, none)
  | fuel + 1, x =>
    match x.stage with
    | .ended e => (x, some e)
    | _ => run fuel (step P A x)

/-- A bound on the moves of a search, far beyond what can be waited for. -/
def fuelBound : Nat := Nat.pow 2 40

end Exploration

end StateAtlas
