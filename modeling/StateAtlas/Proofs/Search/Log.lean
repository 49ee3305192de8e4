import Mathlib.Tactic.Common
import StateAtlas.Search.State

set_option autoImplicit false

/-!
# What a search has said

An audience that writes down every notice it hears turns a search into a list of deliveries. All
that can be known of a search from outside is read off this list: the path it is on, the
transitions it has announced, the states it has discovered, and the instructions that have run on
the way from the start of the program to the state it is in.

## Main definitions

* `StateAtlas.Delivery` — a notice with what could be seen when it was delivered.
* `StateAtlas.Audience.recorded` — an audience that writes down what it hears.
* `StateAtlas.Log.path` — the states on the path, by the advances and retreats announced.
* `StateAtlas.Log.edges` — the announced transitions, each from the state below on the path.
* `StateAtlas.Log.discovered` — the states announced as new.
* `StateAtlas.Log.executed` — the instructions announced on the way to the current state.

## Design

A log has its last delivery first, so that a notice conses and each reading of a log is a
recursion on it.
-/

namespace StateAtlas

variable {L κ : Type}

/-- A notice with what could be seen when it was delivered. -/
structure Delivery where
  view : View
  notice : Notice

/-- The deliveries of a search, the last one first. -/
abbrev Log := List Delivery

/-- An audience that reacts as another one does and writes down what it hears. -/
def Audience.recorded (A : Audience L) : Audience (L × Log) where
  hear l view n :=
    let (l', r) := A.hear l.1 view n
    ((l', ⟨view, n⟩ :: l.2), r)
  report l r := (A.report l.1 r, l.2)

namespace Log

/-- The states on the path, the last one first: an advance adds one and a retreat drops one. -/
def path : Log → List Int
  | [] => []
  | d :: earlier =>
    match d.notice with
    | .advanced => d.view.stateId :: path earlier
    | .backtracked => (path earlier).tail
    | _ => path earlier

/-- The state that the path has led to. -/
def position (log : Log) : Int := (path log).headD initialStateId

/-- The announced transitions, the last one first: at each advance, from the state below on the
path to the state advanced to. -/
def edges : Log → List (Int × Int)
  | [] => []
  | d :: earlier =>
    match d.notice with
    | .advanced => (position earlier, d.view.stateId) :: edges earlier
    | _ => edges earlier

/-- The targets of the announced transitions from a state, in the order of their announcement. -/
def targets (log : Log) (source : Int) : List Int :=
  ((edges log).reverse.filter fun e => e.1 = source).map Prod.snd

/-- The states announced as new, in the order of their announcement. -/
def discovered : Log → List Int
  | [] => []
  | d :: earlier =>
    match d.notice with
    | .advanced => if d.view.isNew then discovered earlier ++ [d.view.stateId] else discovered earlier
    | _ => discovered earlier

/-- The instructions announced between the boundaries of the path, the last ones first. Back at a
boundary, nothing has run since it was reached. -/
def legs : Log → List (List (Instruction × Option Instruction))
  | [] => [[]]
  | d :: earlier =>
    match d.notice, legs earlier with
    | .advanced, segments => [] :: segments
    | .backtracked, segments => [] :: segments.drop 2
    | .executed i next, current :: segments => (current ++ [(i, next)]) :: segments
    | _, segments => segments

/-- The instructions announced on the way to the current state, each with the one after it. -/
def executed (log : Log) : List (Instruction × Option Instruction) := (legs log).reverse.flatten

/-! ## Reading a log one delivery at a time -/

/-- A notice that moves the search along no transition. -/
def isIdle : Notice → Bool
  | .started | .executing _ | .restored | .constraintHit | .finished => true
  | .executed .. | .advanced | .backtracked => false

section Idle

variable {n : Notice} (hn : isIdle n = true) (view : View) (log : Log)
include hn

lemma path_idle : path (⟨view, n⟩ :: log) = path log := by
  cases n <;> first | rfl | simp [isIdle] at hn

lemma edges_idle : edges (⟨view, n⟩ :: log) = edges log := by
  cases n <;> first | rfl | simp [isIdle] at hn

lemma discovered_idle : discovered (⟨view, n⟩ :: log) = discovered log := by
  cases n <;> first | rfl | simp [isIdle] at hn

lemma legs_idle : legs (⟨view, n⟩ :: log) = legs log := by
  cases n <;> first | rfl | simp [isIdle] at hn

end Idle

/-- Only the announcement of a boundary discovers a state. -/
lemma discovered_of_ne {n : Notice} (hn : n ≠ .advanced) (view : View) (log : Log) :
    discovered (⟨view, n⟩ :: log) = discovered log := by
  cases n <;> first | rfl | exact absurd rfl hn

lemma legs_executed {log : Log} {leg : List (Instruction × Option Instruction)}
    {earlier : List (List (Instruction × Option Instruction))} (h : legs log = leg :: earlier)
    (view : View) (i : Instruction) (next : Option Instruction) :
    legs (⟨view, .executed i next⟩ :: log) = (leg ++ [(i, next)]) :: earlier := by
  simp [legs, h]

lemma legs_advanced (view : View) (log : Log) :
    legs (⟨view, .advanced⟩ :: log) = [] :: legs log := rfl

lemma legs_backtracked {log : Log} {leg leg' : List (Instruction × Option Instruction)}
    {earlier : List (List (Instruction × Option Instruction))}
    (h : legs log = leg :: leg' :: earlier) (view : View) :
    legs (⟨view, .backtracked⟩ :: log) = [] :: earlier := by
  simp [legs, h]

end Log

end StateAtlas
