import StateAtlas.Proofs.Search.Operation

set_option autoImplicit false

/-!
# A search that keeps snapshots

The plain way to search a program depth first, if a running program could be copied: keep a
snapshot of the program at every choice at which it goes on, and resume the snapshot once for each
alternative. The recursion follows the tree of executions, and no part of the program runs twice.
This is what the search, which executes the program again for every alternative, is measured
against.

## Main definitions

* `StateAtlas.Descent.Outcome` — what comes of a part of the tree.
* `StateAtlas.Descent.leave` — the last boundary of the path is left.
* `StateAtlas.Descent.follow` — the further alternatives of a choice are followed.
* `StateAtlas.Descent.visit` — the execution goes on, and everything below is visited.
* `StateAtlas.Descent.explore` — the whole program is explored.

## Design

The state of the search between two moves of the program, its notices, and the way it enters a
boundary are those of `StateAtlas.Search`. What differs is the control: a recursion instead of a
loop, and snapshots instead of a list of choices to be repeated. Fuel bounds the depth of the
recursion; without it, there is no outcome.
-/

namespace StateAtlas

/-- The walk of a program that is being stopped. -/
def Walk.stopped (w : Walk) (failure : Option Fault) : Walk := { w with stopping := true, failure }

/-- A path whose last boundary has an alternative, and no listener's wish. -/
def Search.turned {L κ : Type} (s : Search L κ) (a : Nat) : Search L κ :=
  { s with path := s.path.modifyHead fun e => { e with choice := a }, breakReason := none }

namespace Descent

variable {σ L κ : Type}

/-- What comes of a part of the tree. -/
inductive Outcome (L κ : Type) where
  /-- Everything below has been visited, and the last boundary there left. -/
  | back (s : Search L κ)
  /-- The search is over. -/
  | ended (s : Search L κ) (e : Exit)
  /-- The fuel is used up. -/
  | lost (s : Search L κ)

/-- The state of the search at the outcome. -/
def Outcome.search : Outcome L κ → Search L κ
  | .back s | .ended s _ | .lost s => s

/-- How the search is over, if it is. -/
def Outcome.exit? : Outcome L κ → Option Exit
  | .ended _ e => some e
  | _ => none

variable (P : Program σ κ) (A : Audience L)

/-- The last notice is delivered. -/
def last (s : Search L κ) : Outcome L κ :=
  match s.notify A s.outside none .finished with
  | (s, some f) => .ended s (.failed f)
  | (s, none) => .ended s .completed

/-- The last boundary of the path is left. -/
def leave (s : Search L κ) : Outcome L κ :=
  match s.path with
  | [] => .back s
  | _ :: rest =>
    match (s.back rest).notify A s.outside none .backtracked with
    | (s, some f) => .ended s (.failed f)
    | (s, none) => if s.terminated then last A s else .back s

/-- An execution has come to its end. -/
def retreat (s : Search L κ) : Outcome L κ :=
  let s := { s with paths := s.paths + 1 }
  if s.terminated then last A s else leave A s

/-- When everything below a boundary at some depth has been visited, the boundary is left. -/
def close (depth : Nat) : Outcome L κ → Outcome L κ
  | .back s => if s.depth = depth then leave A s else .back s
  | r => r

/-- A snapshot of the program at a choice is resumed with an alternative. -/
def resume (visit : Search L κ → σ → Walk → Outcome L κ) (s : Search L κ) (q : σ) (w : Walk)
    (a : Nat) : Outcome L κ :=
  match (s.turned a).notify A (P.scene q) w.frame .restored with
  | (s, some f) => visit s (P.reply q .stop) (w.stopped (some f))
  | (s, none) =>
    if s.terminated then visit s (P.reply q .stop) (w.stopped none)
    else visit s (P.reply q (.choose a)) w

/-- When everything below one alternative of a choice has been visited, the further ones are
followed, and then the choice is left. -/
def follow (visit : Search L κ → σ → Walk → Outcome L κ) (depth : Nat) (q : σ) (w : Walk) :
    List Nat → Outcome L κ → Outcome L κ
  | [], r => close A depth r
  | a :: alternatives, .back s =>
    if s.depth = depth then
      follow visit depth q w alternatives (resume P A visit s q w a)
    else .back s
  | _ :: _, r => r

variable [DecidableEq κ]

/-- The program has ended. -/
def conclude (s : Search L κ) (q : σ) (w : Walk) (ending : Ending) : Outcome L κ :=
  match ending with
  | .interrupted type message => .ended { s with outside := P.scene q } (.interrupted type message)
  | _ =>
    let s :=
      match ending with
      | .raised type message => s.report A (Exploration.raisedReport s.name type message)
      | _ => s
    match w.failure with
    | some f => .ended s (.failed f)
    | none =>
      if w.stopping || ending = .stopped then retreat A s
      else
        match Exploration.finishPath P A s q w with
        | (s, some f) => .ended s (.failed f)
        | (s, none) => retreat A s

/-- The execution goes on from a configuration, and everything below is visited. -/
def visit : Nat → Search L κ → σ → Walk → Outcome L κ
  | 0, s, _, _ => .lost s
  | fuel + 1, s, p, w =>
    match P.next p with
    | .internal q => visit fuel s q w
    | .print _ q => visit fuel s q w
    | .effect e q =>
      visit fuel s q (if w.stopping then w else { w with previous := w.previous.map (·.apply e) })
    | .terminate q => visit fuel { s with terminated := true } q w
    | .instruction i q =>
      if w.stopping then visit fuel s (P.reply q .proceed) w
      else
        let w := { w with frame := some i.frame }
        match Exploration.concludeStep P A s q w i with
        | (t, .failed f) => visit fuel t (P.reply q .stop) (w.stopped (some f))
        | (t, .halt) => visit fuel t (P.reply q .stop) (w.stopped none)
        | (t, .onward) =>
          match t.notify A (P.scene q) w.frame (.executing i) with
          | (t, some f) => visit fuel t (P.reply q .stop) (w.stopped (some f))
          | (t, none) =>
            if t.terminated then visit fuel t (P.reply q .stop) (w.stopped none)
            else close A (s.depth + 1)
              (visit fuel t (P.reply q .proceed) { w with previous := some i })
    | .choice options q =>
      if options < 1 then visit fuel s (P.reply q (.refuse options)) w
      else if w.stopping then visit fuel s (P.reply q .stop) w
      else
        let b := Boundary.choice options.toNat
        match s.reach A (P.scene q) w.frame b (P.fingerprint w.execution q w.frame b) with
        | (t, .failed f) => visit fuel t (P.reply q .stop) (w.stopped (some f))
        | (t, .halt) => visit fuel t (P.reply q .stop) (w.stopped none)
        | (t, .onward) =>
          follow P A (visit fuel) (s.depth + 1) q w (List.range' 1 (options.toNat - 1))
            (visit fuel t (P.reply q (.choose 0)) w)
    | .ended ending q => conclude P A s q w ending

/-- The whole program is explored: it is started once, and everything below is visited. -/
def explore (fuel : Nat) (s : Search L κ) : Outcome L κ :=
  match s.notify A s.outside none .started with
  | (s, some f) => .ended s (.failed f)
  | (s, none) =>
    if s.terminated then last A s
    else
      match visit P A fuel s.unasked (P.start 0) ⟨0, none, none, false, none, [], 0⟩ with
      | .back s => last A s
      | r => r

end Descent

end StateAtlas
