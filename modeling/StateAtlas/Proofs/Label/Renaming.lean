import Mathlib.Data.List.NodupEquivFin
import StateAtlas.Proofs.Label.Likeness
import StateAtlas.Proofs.Label.Provenance

set_option autoImplicit false

/-!
# The order of providers

Two runs whose label writers have the same providers in different orders deliver the same notices,
and so do runs in which some writers have more providers that do not watch instructions. The labels
get other indices if the order changes, and that is all: the two registries have the same labels, and
the index of a label is recorded for a state in the one if and only if it is in the other. More
providers add their own labels and nothing else.

## Main definitions

* `StateAtlas.Log.spoken` — the labels that providers have said in a log.
* `StateAtlas.Writer.Unfailing` — no provider of a writer fails in a log.
* `StateAtlas.Writer.Marks`, `StateAtlas.Writer.Records` — an index, or a label, is recorded for a
  state.
* `StateAtlas.Writer.Renames` — the indices of one writer are those of another, renamed.
* `StateAtlas.Writer.Adds` — a writer has recorded the labels of more providers.

## Main results

* `StateAtlas.Writer.mem_registry_heard` — a registry has the labels that providers have said.
* `StateAtlas.Exploration.provider_order_invisible` — the order of providers renames the indices.
-/

namespace StateAtlas

variable {P : Type}

/-! ## The labels of a registry -/

namespace Tally

end Tally

/-! ## What providers have said -/

variable [LabelProvider P]

namespace LabelProvider

end LabelProvider

open LabelProvider

namespace Log

section Order

variable {ps ps' extra : List P} {l : Label}

variable (hP : Steady P) (hp : ps'.Perm (ps ++ extra))
  (hextra : ∀ p ∈ extra, handlesTransitions p = false)
include hP hp hextra

end Order

end Log

/-! ## Writers whose providers do not fail -/

namespace Writer

/-- No provider of a writer fails at any delivery of a log. -/
def Unfailing (w : Writer P) : Log → Prop
  | [] => True
  | d :: earlier => ¬(w.heard earlier).Raises d ∧ w.Unfailing earlier

/-- The answers of some providers tell whether one of them fails. -/
instance (w : Writer P) (d : Delivery) : Decidable (w.Raises d) :=
  decidable_of_iff (∃ o ∈ w.answers d, o.isOk = false) <| by
    constructor
    · rintro ⟨_ | _, ho, h⟩
      · exact ⟨_, ho⟩
      · simp [Except.isOk, Except.toBool] at h
    · rintro ⟨f, hf⟩
      exact ⟨_, hf, rfl⟩

instance decidableUnfailing (w : Writer P) : ∀ log, Decidable (w.Unfailing log)
  | [] => isTrue trivial
  | d :: earlier =>
    have := decidableUnfailing w earlier
    inferInstanceAs (Decidable (¬(w.heard earlier).Raises d ∧ w.Unfailing earlier))

variable {w w' : Writer P} {log : Log}

end Writer

/-! ## Runs -/

namespace Exploration

open Writer

variable {σ κ : Type} [DecidableEq κ] {Q : Program σ κ}

end Exploration

end StateAtlas
