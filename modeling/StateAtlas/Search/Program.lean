import StateAtlas.Fingerprint.Freeze
import StateAtlas.Program.Instruction

set_option autoImplicit false

/-!
# Programs that can be explored

The search knows a program only as something that runs in small moves. Before an instruction and
at a choice the program pauses and waits for a reply. One of the replies is the signal to stop:
it arises inside the program like an exception, and the program may catch it and go on.

## Main definitions

* `StateAtlas.Move` — what a running program does next.
* `StateAtlas.Reply` — what a paused program is told.
* `StateAtlas.ExceptionClass` — the class of an exception that leaves a run.
* `StateAtlas.Ending` — how an execution ends.
* `StateAtlas.Program` — a program with configurations of type `σ` and fingerprints of type `κ`.
-/

namespace StateAtlas

/-- The class of an exception that leaves a run, as far as it makes a difference there. -/
structure ExceptionClass where
  name : String
  /-- Whether its exceptions say that a text is no program. -/
  isSyntaxError : Bool
  deriving DecidableEq, Repr, Inhabited

instance : Coe ExceptionClass String := ⟨ExceptionClass.name⟩

/-- How an execution ends. -/
inductive Ending where
  | normal
  /-- The program asked to exit. -/
  | exit
  /-- An exception left the program. -/
  | raised (type message : String)
  /-- A signal to the whole run left the program, or an exception of which no report can be
  made. -/
  | interrupted (type : ExceptionClass) (message : String)
  /-- The signal to stop left the program. -/
  | stopped
  deriving DecidableEq, Repr, Inhabited

/-- What a paused program is told. -/
inductive Reply where
  | proceed
  /-- Follow an alternative of a choice. -/
  | choose (alternative : Nat)
  /-- There is no choice among this number of alternatives. -/
  | refuse (options : Int)
  /-- The path is over. -/
  | stop
  deriving DecidableEq, Repr

/-- What a running program does next; every move comes with the configuration after it. -/
inductive Move (σ : Type) where
  /-- A step that nobody sees. -/
  | internal (s : σ)
  | print (text : String) (s : σ)
  /-- Pauses before an instruction. -/
  | instruction (i : Instruction) (s : σ)
  /-- Something became known of the last instruction. -/
  | effect (e : Effect) (s : σ)
  /-- Pauses at a choice among some alternatives. -/
  | choice (options : Int) (s : σ)
  /-- Asks that the whole search ends. -/
  | terminate (s : σ)
  | ended (ending : Ending) (s : σ)

/-- A program with configurations of type `σ` and fingerprints of type `κ`. Executions are numbered,
because objects that they make are never the same object. -/
structure Program (σ κ : Type) where
  /-- The configuration before anything has run, in the execution of the given number. -/
  start : Nat → σ
  next : σ → Move σ
  /-- The configuration of a paused program after a reply. -/
  reply : σ → Reply → σ
  /-- What can be seen of a configuration. -/
  scene : σ → Scene
  /-- The fingerprint of the state at a boundary in the execution of the given number, seen from the
  frame of the last instruction, or why there is none. -/
  fingerprint : Nat → σ → Option FrameId → Boundary → Except Fault κ

end StateAtlas
