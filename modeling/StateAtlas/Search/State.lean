import StateAtlas.Log
import StateAtlas.Search.Program
import StateAtlas.Search.View

set_option autoImplicit false

/-!
# The state of a search

A depth-first search keeps the boundaries of the current path, each with the alternatives of its
choice, and the fingerprints of all states seen, whose places are the numbers of the states.

## Main definitions

* `StateAtlas.Audience` — the listeners of a search as one.
* `StateAtlas.PathEntry` — a boundary on the current path.
* `StateAtlas.Search` — what a search knows between two moves of the program.
* `StateAtlas.Search.notify` — delivers a notice.
* `StateAtlas.Search.advance` — reaches a boundary.
* `StateAtlas.Search.reach` — reaches a boundary whose fingerprint may be missing.
* `StateAtlas.Search.backtrack` — goes back to the last choice with an alternative left.
-/

namespace StateAtlas

/-- The listeners of a search as one: what they do at a notice, and at a report. -/
structure Audience (L : Type) where
  hear : L → View → Notice → L × Reaction
  report : L → LogRecord → L

/-- A boundary on the current path: its state and, at a choice, the number of alternatives and
the one that is followed. -/
structure PathEntry where
  state : Nat
  options : Nat
  choice : Nat
  deriving DecidableEq, Repr

namespace PathEntry

/-- Whether alternatives are left. -/
def hasMore (e : PathEntry) : Bool := e.choice + 1 < e.options

/-- The entry with the next alternative followed. -/
def nextChoice (e : PathEntry) : PathEntry := { e with choice := e.choice + 1 }

end PathEntry

/-- The number of the state before the first boundary. -/
def initialStateId : Int := -1

/-- What a search knows between two moves of the program. -/
structure Search (L κ : Type) where
  /-- The name of the explored program. -/
  name : String
  depthLimit : Option Int
  maxStates : Option Int
  /-- What can be seen while the program is not running: the modules that stay loaded. -/
  outside : Scene
  listeners : L
  stateId : Int
  isNew : Bool
  isEnd : Bool
  /-- The boundaries of the current path, the last one first. -/
  path : List PathEntry
  /-- The fingerprints of the states in order of discovery. -/
  seen : Array κ
  /-- The limit that was hit last. -/
  constraint : Option String
  terminated : Bool
  /-- The number of executions that came to an end. -/
  paths : Nat
  /-- Why a listener wants the transition to end. -/
  breakReason : Option String

/-- What came of reaching a boundary. -/
inductive Progress where
  /-- The path goes on. -/
  | onward
  /-- The path is over. -/
  | halt
  /-- A listener failed, or the state has no fingerprint. -/
  | failed (f : Fault)
  deriving DecidableEq, Repr

/-- What came of going back. -/
inductive Retreat where
  /-- There is an alternative to follow. -/
  | resume
  /-- Everything has been followed, or the search was terminated. -/
  | done
  /-- A listener failed. -/
  | failed (f : Fault)
  deriving DecidableEq, Repr

namespace Search

variable {L κ : Type}

/-- A search that has not begun. -/
def new (name : String) (depthLimit maxStates : Option Int) (outside : Scene) (listeners : L) :
    Search L κ where
  name
  depthLimit
  maxStates
  outside
  listeners
  stateId := initialStateId
  isNew := false
  isEnd := false
  path := []
  seen := #[]
  constraint := none
  terminated := false
  paths := 0
  breakReason := none

/-- The number of boundaries on the current path. -/
def depth (s : Search L κ) : Nat := s.path.length

/-- The answers of the search to questions of its listeners. -/
def view (s : Search L κ) (scene : Scene) (top : Option FrameId) : View where
  name := s.name
  stateId := s.stateId
  isNew := s.isNew
  isEnd := s.isEnd
  depth := s.depth
  constraint := s.constraint
  top
  scene

/-- The number of the state on top of a path. -/
def topState : List PathEntry → Int
  | [] => initialStateId
  | e :: _ => e.state

/-- The alternatives to follow again to come back to the last choice of the path. -/
def replay (s : Search L κ) : List Nat :=
  (s.path.reverse.filter fun e => e.options ≠ 0).map PathEntry.choice

variable (A : Audience L)

/-- Delivers a notice. -/
def notify (s : Search L κ) (scene : Scene) (top : Option FrameId) (n : Notice) :
    Search L κ × Option Fault :=
  let (listeners, r) := A.hear s.listeners (s.view scene top) n
  ({ s with
      listeners
      terminated := s.terminated || r.terminate
      breakReason := r.breakReason <|> s.breakReason }, r.failure)

/-- Passes a report on. -/
def report (s : Search L κ) (r : LogRecord) : Search L κ :=
  { s with listeners := A.report s.listeners r }

/-- Puts a boundary on the path; its state is new if its fingerprint has not been seen. -/
def enter [DecidableEq κ] (s : Search L κ) (b : Boundary) (key : κ) : Search L κ :=
  let options :=
    match b with
    | .choice options => options
    | _ => 0
  match s.seen.findIdx? (· = key) with
  | some id =>
    { s with
      stateId := id
      isNew := false
      isEnd := b = .finished
      path := ⟨id, options, 0⟩ :: s.path }
  | none =>
    { s with
      stateId := s.seen.size
      isNew := true
      isEnd := b = .finished
      path := ⟨s.seen.size, options, 0⟩ :: s.path
      seen := s.seen.push key }

/-- Whether a number has reached a limit. -/
def reached (limit : Option Int) (n : Nat) : Bool :=
  match limit with
  | some l => l ≤ n
  | none => false

/-- Tells the listeners of a limit. -/
def hitConstraint (s : Search L κ) (scene : Scene) (top : Option FrameId) (c : String) :
    Search L κ × Option Fault :=
  { s with constraint := some c }.notify A scene top .constraintHit

/-- Reaches a boundary. The path goes on from a new state that is no end state, unless the search
is terminated or a limit is hit; the limit on states terminates the search. -/
def advance [DecidableEq κ] (s : Search L κ) (scene : Scene) (top : Option FrameId) (b : Boundary)
    (key : κ) : Search L κ × Progress :=
  match (s.enter b key).notify A scene top .advanced with
  | (s, some f) => (s, .failed f)
  | (s, none) =>
    if s.terminated || !s.isNew || s.isEnd then (s, .halt)
    else if reached s.maxStates s.seen.size then
      match s.hitConstraint A scene top "states" with
      | (s, some f) => (s, .failed f)
      | (s, none) => ({ s with terminated := true }, .halt)
    else if reached s.depthLimit s.depth then
      match s.hitConstraint A scene top "depth" with
      | (s, some f) => (s, .failed f)
      | (s, none) => (s, .halt)
    else (s, .onward)

/-- Reaches a boundary, unless it has no fingerprint: then nobody is told of it. -/
def reach [DecidableEq κ] (s : Search L κ) (scene : Scene) (top : Option FrameId) (b : Boundary) :
    Except Fault κ → Search L κ × Progress
  | .error f => (s, .failed f)
  | .ok key => s.advance A scene top b key

/-- Leaves the boundaries of a path one after another, until one has alternatives left. -/
def backtrackFrom (s : Search L κ) : List PathEntry → Search L κ × Retreat
  | [] => (s, .done)
  | _ :: rest =>
    let s := { s with path := rest, stateId := topState rest, isNew := false, isEnd := false }
    match s.notify A s.outside none .backtracked with
    | (s, some f) => (s, .failed f)
    | (s, none) =>
      if s.terminated then (s, .done)
      else
        match rest with
        | e :: below =>
          if e.hasMore then ({ s with path := e.nextChoice :: below }, .resume)
          else s.backtrackFrom rest
        | [] => (s, .done)

/-- Goes back to the last choice with an alternative left. -/
def backtrack (s : Search L κ) : Search L κ × Retreat := s.backtrackFrom A s.path

end Search

end StateAtlas
