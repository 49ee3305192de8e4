import StateAtlas.Fault
import StateAtlas.Program.Instruction

set_option autoImplicit false

/-!
# What listeners are told

A search tells its listeners what happens, and answers their questions about the state it is in.

## Main definitions

* `StateAtlas.View` — the answers of a search to questions about its current state.
* `StateAtlas.Notice` — the events of a search.
* `StateAtlas.Reaction` — what a listener asks of the search in answer to an event.
-/

namespace StateAtlas

/-- The answers of a search to questions about its current state. -/
structure View where
  /-- The name of the explored program. -/
  name : String
  /-- The state the search is in; `-1` before the first one. -/
  stateId : Int
  isNew : Bool
  isEnd : Bool
  /-- The number of boundaries on the current path. -/
  depth : Nat
  /-- The limit that was hit last. -/
  constraint : Option String
  /-- The innermost frame of the program, if it is running. -/
  top : Option FrameId
  scene : Scene
  deriving Inhabited

/-- The events of a search. -/
inductive Notice where
  | started
  /-- An instruction is about to run. -/
  | executing (i : Instruction)
  /-- An instruction has run; the next one is missing if the program ended. -/
  | executed (i : Instruction) (next : Option Instruction)
  /-- A boundary was reached. -/
  | advanced
  /-- The last boundary of the path was left. -/
  | backtracked
  /-- A choice was reached again, to follow its next alternative. -/
  | restored
  | constraintHit
  | finished

/-- What a listener asks of the search in answer to an event. -/
structure Reaction where
  /-- Stop the search after this event. -/
  terminate : Bool
  /-- End the transition before the next instruction, for a reason. -/
  breakReason : Option String
  /-- The listener failed. -/
  failure : Option Fault
  deriving Inhabited

namespace Reaction

/-- Nothing is asked. -/
def none : Reaction := ⟨false, .none, .none⟩

/-- The listener failed. -/
def failing (f : Fault) : Reaction := ⟨false, .none, some f⟩

/-- Two reactions one after the other: a later reason replaces an earlier one. -/
def andThen (a b : Reaction) : Reaction where
  terminate := a.terminate || b.terminate
  breakReason := b.breakReason <|> a.breakReason
  failure := a.failure <|> b.failure

end Reaction

end StateAtlas
