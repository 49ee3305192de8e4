import StateAtlas.Search.View

set_option autoImplicit false

/-!
# Recorders

A recorder is a listener that keeps a list of the events of a search, and may act on some of them.

## Main definitions

* `StateAtlas.EventKind` — the events that are kept.
* `StateAtlas.Recorder` — the kept events and the planned actions.
-/

namespace StateAtlas

/-- The kinds of event that are kept. -/
inductive EventKind where
  | started
  | advanced
  | backtracked
  | restored
  | constraint
  | finished
  deriving DecidableEq, Repr

/-- The kind of a notice, if it is kept. -/
def EventKind.ofNotice? : Notice → Option EventKind
  | .started => some .started
  | .advanced => some .advanced
  | .backtracked => some .backtracked
  | .restored => some .restored
  | .constraintHit => some .constraint
  | .finished => some .finished
  | .executing _ | .executed .. => none

/-- The word for a kind of event. -/
def EventKind.word : EventKind → String
  | .started => "started"
  | .advanced => "advanced"
  | .backtracked => "backtracked"
  | .restored => "restored"
  | .constraint => "constraint"
  | .finished => "finished"

/-- An event with the answers of the search at that moment. -/
structure Event where
  kind : EventKind
  stateId : Int
  isNew : Bool
  isEnd : Bool
  depth : Nat
  constraint : Option String
  /-- The qualified name of the code of the innermost frame. -/
  top : Option String

/-- What a recorder may do at an event. -/
inductive PlannedAction where
  | terminate
  | break
  | fail
  deriving DecidableEq, Repr

/-- A listener that keeps the events of a search. -/
structure Recorder where
  events : Array Event
  /-- What to do at the n-th event of a kind. -/
  plan : List (EventKind × Nat × PlannedAction)
  /-- How many of the boundaries that the program wishes for it has asked for in the current
  execution, if it heeds such wishes. -/
  granted : Option Nat
  /-- The instructions that were about to run, if they are kept. -/
  trace : Option (Array Instruction)

namespace Recorder

/-- A recorder that has not heard anything yet. -/
def new (plan : List (EventKind × Nat × PlannedAction)) (heeds trace : Bool) : Recorder :=
  ⟨#[], plan, if heeds then some 0 else none, if trace then some #[] else none⟩

/-- The event of a kind in a view. -/
def eventOf (view : View) (kind : EventKind) : Event where
  kind
  stateId := view.stateId
  isNew := view.isNew
  isEnd := view.isEnd
  depth := view.depth
  constraint := view.constraint
  top := view.top.map fun f => view.scene.codeName f

/-- The reaction that an action is. -/
def reactionOf : PlannedAction → Reaction
  | .terminate => { Reaction.none with terminate := true }
  | .break => { Reaction.none with breakReason := some "listener" }
  | .fail => .failing (.requested "listener bug")

/-- The reactions planned for the n-th event of a kind, up to the first failure. -/
def planned (kind : EventKind) (n : Nat) : List (EventKind × Nat × PlannedAction) → Reaction
  | [] => .none
  | (k, m, action) :: rest =>
    if k = kind && m = n then
      match action with
      | .fail => reactionOf .fail
      | action => (reactionOf action).andThen (planned kind n rest)
    else planned kind n rest

/-- The number of boundaries that a program has wished for before an instruction, which programs
that make wishes pass on as the argument of their instructions. -/
def wishes? (i : Instruction) : Option Nat := i.argument.integer?.map Int.toNat

/-- Asks for a boundary when the program has wished for one since the last instruction that the
recorder was told of. -/
def heed (r : Recorder) (wishes : Option Nat) : Recorder × Reaction :=
  match r.granted, wishes with
  | some n, some m =>
    if n < m then
      ({ r with granted := some m }, { Reaction.none with breakReason := some "wish" })
    else (r, .none)
  | _, _ => (r, .none)

/-- The reaction of a recorder to a notice. -/
def hear (r : Recorder) (view : View) (n : Notice) : Recorder × Reaction :=
  match EventKind.ofNotice? n with
  | some kind =>
    let events := r.events.push (eventOf view kind)
    let count := (events.filter fun e => e.kind = kind).size
    ({ r with
        events
        granted := if kind = .backtracked then r.granted.map fun _ => 0 else r.granted },
      planned kind count r.plan)
  | none =>
    match n with
    | .executing i => ({ r with trace := r.trace.map (·.push i) }, .none)
    | .executed _ next => r.heed (next.bind wishes?)
    | _ => (r, .none)

end Recorder

end StateAtlas
