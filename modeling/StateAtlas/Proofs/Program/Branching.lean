import StateAtlas.Proofs.Program.Execution

set_option autoImplicit false

/-!
# Programs that only choose

The smallest programs that a search can be about do nothing but choose between two alternatives,
again and again, until they end. Their configurations are their fingerprints.

## Main definitions

* `StateAtlas.Program.Branching` — a program that chooses between two alternatives and ends.

## Main results

* `StateAtlas.Program.Branching.onward` — its moves.
* `StateAtlas.Program.Branching.boundary` — its boundaries.
* `StateAtlas.Program.Branching.leg` — the ways from one boundary to the next.
-/

namespace StateAtlas.Program

variable {σ : Type}

/-- A program that chooses between two alternatives in its inner configurations, ends in all others,
and shows its configuration as its fingerprint. An alternative leads to a child. -/
structure Branching (P : Program σ σ) (inner : σ → Prop) (child : σ → Nat → σ) : Prop where
  fork : ∀ {c}, inner c → P.next c = .choice 2 c
  leaf : ∀ {c}, ¬inner c → ∃ ending, P.next c = .ended ending c
  reply : ∀ c a, P.reply c (.choose a) = child c a
  fingerprint : ∀ i c f b, P.fingerprint i c f b = .ok c

namespace Branching

variable {P : Program σ σ} {inner : σ → Prop} {child : σ → Nat → σ}

/-- Every move follows one of the two alternatives of an inner configuration. -/
lemma onward (h : P.Branching inner child) {l m : Place σ} (hm : P.Onward l m) :
    inner l.config ∧ ∃ a < 2, m = l.choose a (child l.config a) := by
  by_cases hi : inner l.config
  · have hn := h.fork hi
    cases hm with
    | choose hc a ha =>
      rw [hn, Move.choice.injEq] at hc
      obtain ⟨rfl, rfl⟩ := hc
      exact ⟨hi, a, by omega, by rw [h.reply]⟩
    | refuse hc hlt =>
      rw [hn, Move.choice.injEq] at hc
      omega
    | _ => simp_all
  · obtain ⟨ending, hn⟩ := h.leaf hi
    cases hm <;> simp_all

/-- No move lies between boundaries. -/
lemma not_calm (h : P.Branching inner child) {R : Place σ → Bool → Prop} {l m : Place σ} :
    ¬P.Calm R l m := by
  intro hc
  obtain ⟨-, a, -, rfl⟩ := h.onward hc.onward
  simpa [Place.choose] using hc.choices

/-- The fingerprint of a boundary is the configuration. There are two alternatives in an inner
one. -/
lemma boundary (h : P.Branching inner child) [DecidablePred inner] {R : Place σ → Bool → Prop}
    {l : Place σ} {b : Boundary} {r : Except Fault σ} (hb : P.At R l b r) :
    r = .ok l.config ∧ b.arity = if inner l.config then 2 else 0 := by
  by_cases hi : inner l.config
  · have hn := h.fork hi
    cases hb with
    | choice hc hpos hr =>
      rw [hn, Move.choice.injEq] at hc
      obtain ⟨rfl, rfl⟩ := hc
      exact ⟨hr.symm.trans (h.fingerprint _ _ _ _), (if_pos hi).symm⟩
    | _ => simp_all
  · obtain ⟨ending, hn⟩ := h.leaf hi
    cases hb with
    | finished hc he hi' hr =>
      rw [hn, Move.ended.injEq] at hc
      exact ⟨by rw [← hr, h.fingerprint, hc.2], (if_neg hi).symm⟩
    | _ => simp_all

/-- From one boundary to the next the program follows an alternative. -/
lemma leg (h : P.Branching inner child) {R : Place σ → Bool → Prop} {l m : Place σ} {a : Nat}
    (hl : P.Leg R l a m) : m.config = child l.config a := by
  obtain ⟨l', hd, hc⟩ := hl
  rcases hc.cases_head with rfl | ⟨m', hc, -⟩
  · obtain ⟨-, b, -, hl'⟩ := h.onward hd.onward
    cases hd with
    | choice hn a ha =>
      obtain rfl : a = b := by simpa [Place.choose] using congrArg Place.choices hl'
      rw [hl']
      rfl
    | requested hn => simpa [Place.begin, Place.choose] using congrArg Place.choices hl'
  · exact absurd hc h.not_calm

end Branching

end StateAtlas.Program
