import StateAtlas.Proofs.Program.Branching
import StateAtlas.Search.State

set_option autoImplicit false

/-!
# Two coins

A program that throws two coins and counts the heads. It has everything that a search is about in
its smallest form: two choices one after the other, and two ways to the same state.

## Main definitions

* `StateAtlas.coins` — the program.
* `StateAtlas.Audience.mute` — an audience that asks for nothing.
-/

namespace StateAtlas

/-- Two coins are thrown one after the other. The configuration and the fingerprint are the
number of coins thrown and the number of heads; a program that has been stopped has thrown three. -/
def coins : Program (Nat × Nat) (Nat × Nat) where
  start _ := (0, 0)
  next c :=
    if c.1 < 2 then .choice 2 c else if c.1 = 2 then .ended .normal c else .ended .stopped c
  reply c r :=
    match r with
    | .choose a => (c.1 + 1, c.2 + a)
    | .stop => (3, c.2)
    | _ => c
  scene _ := ⟨.empty, .empty, #[]⟩
  fingerprint _ c _ _ := .ok c

/-- An audience that asks for nothing. -/
def Audience.mute : Audience Unit where
  hear _ _ _ := ((), .none)
  report _ _ := ()

/-- Two executions of the coins begin alike. -/
lemma coins_deterministic : coins.Deterministic := fun _ _ => .refl _

/-- The fingerprints of the coins are the same in all executions. -/
lemma coins_reproducible : coins.Reproducible :=
  Program.reproducible_of_constant (fun _ _ => rfl) fun _ _ _ _ _ => rfl

/-- The coins are thrown as long as one is left. -/
lemma coins_branching : coins.Branching (fun c => c.1 < 2) fun c a => (c.1 + 1, c.2 + a) where
  fork h := if_pos h
  leaf {c} h := by
    by_cases h2 : c.1 = 2
    · exact ⟨.normal, (if_neg h).trans (if_pos h2)⟩
    · exact ⟨.stopped, (if_neg h).trans (if_neg h2)⟩
  reply _ _ := rfl
  fingerprint _ _ _ _ := rfl

/-- No execution throws more than two coins. -/
lemma coins_thrown {l : Place (Nat × Nat)} (h : coins.Reaches l) : l.config.1 ≤ 2 := by
  induction h with
  | refl => exact Nat.zero_le _
  | tail _ h _ =>
    obtain ⟨hlt, a, -, rfl⟩ := coins_branching.onward h
    exact hlt

/-- The coins never stop by themselves. -/
lemma coins_honest : coins.Honest := by
  intro l q h hq
  have hle := coins_thrown h
  by_cases h1 : l.config.1 < 2
  · simp [coins_branching.fork h1] at hq
  · have h2 : l.config.1 = 2 := by omega
    simp [coins, h2] at hq

end StateAtlas
