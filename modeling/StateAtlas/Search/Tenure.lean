import StateAtlas.Search.Run

set_option autoImplicit false

/-!
# The search that answers choices

A program turns with its choices to one search, the holder of the office. A search takes the office
before its first execution and remembers who held it; when the executions are over, however they
came to an end, it gives the office back.

## Main definitions

* `StateAtlas.Tenure` — a search with the office.
* `StateAtlas.Tenure.step` — one move of the search.
* `StateAtlas.Tenure.run` — as many moves as fuel allows.

## Design

The office changes hands with the stage of the search alone, so that the moves of the search itself
do not mention it.
-/

namespace StateAtlas

/-- Whether the executions of a search have begun and are not over. -/
def Stage.inOffice {σ : Type} : Stage σ → Bool
  | .launching | .executing .. => true
  | .waiting | .ended _ => false

/-- A search and the office of answering choices; searches go by names of type `ι`. -/
structure Tenure (σ L κ ι : Type) where
  exploration : Exploration σ L κ
  /-- The name of the search itself. -/
  self : ι
  /-- The search that choices are put to, if there is one. -/
  holder : Option ι
  /-- The search that held the office when this one took it. -/
  predecessor : Option ι

namespace Tenure

variable {σ L κ ι : Type}

/-- A search that has not begun, while choices are put to another one. -/
def ofSearch (self : ι) (holder : Option ι) (s : Search L κ) : Tenure σ L κ ι :=
  ⟨.ofSearch s, self, holder, none⟩

variable [DecidableEq κ] (P : Program σ κ) (A : Audience L)

/-- One move of the search, which takes the office when its executions begin, and gives it back
when they are over. -/
def step (x : Tenure σ L κ ι) : Tenure σ L κ ι :=
  let y := x.exploration.step P A
  match x.exploration.stage.inOffice, y.stage.inOffice with
  | false, true => { x with exploration := y, holder := some x.self, predecessor := x.holder }
  | true, false => { x with exploration := y, holder := x.predecessor }
  | _, _ => { x with exploration := y }

/-- As many moves as the fuel allows, up to the end of the search; with the way it ended, if it
did. -/
def run : Nat → Tenure σ L κ ι → Tenure σ L κ ι × Option Exit
  | 0, x => (x, none)
  | fuel + 1, x =>
    match x.exploration.stage with
    | .ended e => (x, some e)
    | _ => run fuel (x.step P A)

end Tenure

end StateAtlas
