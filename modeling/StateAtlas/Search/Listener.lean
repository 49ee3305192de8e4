import StateAtlas.Label.Writer
import StateAtlas.Search.Recorder
import StateAtlas.Search.State

set_option autoImplicit false

/-!
# The listeners of a run

A run has label writers and possibly a recorder. Every notice is delivered to them in order; the
first failure ends the delivery.

## Main definitions

* `StateAtlas.Listener` — a label writer or a recorder.
* `StateAtlas.Listeners` — the listeners of a run and what they share.
* `StateAtlas.Listeners.audience` — the listeners as the audience of a search.
-/

namespace StateAtlas

/-- A label writer or a recorder. -/
inductive Listener (P : Type) where
  | writer (w : Writer P)
  | recorder (r : Recorder)

/-- The listeners of a run and what they share. -/
structure Listeners (P : Type) where
  members : List (Listener P)
  surroundings : Surroundings

namespace Listeners

variable {P : Type} [LabelProvider P]

/-- The reaction of one listener. -/
def hearOne (l : Listener P) (e : Surroundings) (view : View) (n : Notice) :
    Listener P × Surroundings × Reaction :=
  match l with
  | .writer w =>
    let (w, e, r) := w.hear e view n
    (.writer w, e, r)
  | .recorder r =>
    let (r, reaction) := r.hear view n
    (.recorder r, e, reaction)

/-- The reactions of listeners one after another, up to the first failure. -/
def hearAll (view : View) (n : Notice) :
    List (Listener P) → Surroundings → List (Listener P) × Surroundings × Reaction
  | [], e => ([], e, .none)
  | l :: ls, e =>
    match hearOne l e view n with
    | (l, e, r) =>
      if r.failure.isSome then (l :: ls, e, r)
      else
        let (ls, e, r') := hearAll view n ls e
        (l :: ls, e, r.andThen r')

/-- The listeners as the audience of a search. -/
def audience : Audience (Listeners P) where
  hear ls view n :=
    let (members, surroundings, r) := hearAll view n ls.members ls.surroundings
    (⟨members, surroundings⟩, r)
  report ls r := { ls with surroundings := ls.surroundings.report r }

/-- The label writers. -/
def writers (ls : Listeners P) : List (Writer P) :=
  ls.members.filterMap fun
    | .writer w => some w
    | .recorder _ => none

/-- The first recorder. -/
def recorder? (ls : Listeners P) : Option Recorder :=
  ls.members.findSome? fun
    | .recorder r => some r
    | .writer _ => none

end Listeners

end StateAtlas
