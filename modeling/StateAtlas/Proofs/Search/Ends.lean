import StateAtlas.Proofs.Program.Future
import StateAtlas.Proofs.Search.Completeness

set_option autoImplicit false

/-!
# The ends that a search finds

Where fingerprints tell states, a search that has come to its end has found every end of the program,
whatever its listeners are. They decide where boundaries lie, and may do so differently each time the
program passes; but an execution that the search has not followed is followed, step by step, by one
that it has, since the search has gone on from every state along every alternative.

## Main definitions

* `StateAtlas.Program.Telling` — boundaries with one fingerprint are those of one configuration.
* `StateAtlas.Program.Covered` — a place from which the search has gone on to a state.
* `StateAtlas.Program.FoundEnd` — an end of the program that has been numbered.

## Main results

* `StateAtlas.Expanded.exists_covered` — every execution is followed by one that the search covers.
* `StateAtlas.Exploration.ends_found` — the ends found are those of all executions.
* `StateAtlas.Exploration.same_ends` — listeners do not change the ends found.
-/

namespace StateAtlas

variable {σ L κ : Type}

namespace Program

variable (P : Program σ κ) (R : Place σ → Bool → Prop)

/-- Fingerprints tell states: boundaries with one fingerprint are of one kind, and the program waits
in the same configuration and the same frame at them. -/
def Telling : Prop := ∀ {l l' b b' k}, P.Reaches l → P.At R l b (.ok k) → P.Reaches l' →
  P.At R l' b' (.ok k) → b = b' ∧ P.waiting l = P.waiting l' ∧ P.frameAt l = P.frameAt l'

/-- A place from which an execution goes on, without any boundary on the way, to one with a
fingerprint that has been numbered. -/
def Covered (seen : Array κ) (l : Place σ) : Prop :=
  P.Reaches l ∧ ∃ m b k, Relation.ReflTransGen (P.Calm R) l m ∧ P.At R m b (.ok k) ∧ k ∈ seen

/-- The program ends in a configuration, and the end has a fingerprint that has been numbered. -/
def FoundEnd (seen : Array κ) (q : σ) : Prop :=
  ∃ l ending k, P.Reaches l ∧ P.next l.config = .ended ending q ∧ P.At R l .finished (.ok k) ∧
    k ∈ seen

variable {P R} {l l' m m' : Place σ} {b : Boundary} {r r' : Except Fault κ}

/-- An execution goes on from a boundary with one of its alternatives. -/
lemma At.exists_departs (hb : P.At R l b r) (h : P.Onward l m) :
    ∃ a < b.arity, P.Departs l a m := by
  cases hb with
  | @choice n q _ _ hn hpos =>
    cases h with
    | @choose _ _ h a ha =>
      obtain ⟨rfl, rfl⟩ : _ ∧ _ := by simpa [hn] using h
      have hlt : a < n.toNat := by omega
      exact ⟨a, hlt, .choice hn a ha⟩
    | refuse h hlt =>
      obtain ⟨rfl, -⟩ : _ ∧ _ := by simpa [hn] using h
      omega
    | _ h => simp [hn] at h
  | requested hn =>
    cases h with
    | instruction h => exact ⟨0, Nat.zero_lt_one, .requested h⟩
    | choose h => simp [hn] at h
    | _ h => simp [hn] at h
  | finished hn =>
    cases h with
    | choose h => simp [hn] at h
    | _ h => simp [hn] at h

/-- A boundary before an instruction is one that a listener asks for. -/
lemma At.eq_requested (hb : P.At R l b r) {i : Instruction} {q : σ}
    (h : P.next l.config = .instruction i q) : b = .requested := by
  cases hb with
  | requested => rfl
  | _ hn => simp [h] at hn

/-- There is no choice at a boundary that a listener asks for. -/
lemma At.next_ne_choice (hb : P.At R l .requested r) (n : Int) (q : σ) :
    P.next l.config ≠ .choice n q := by
  cases hb with
  | requested h => simp [h]

/-- From boundaries of one kind at which the program waits in the same configuration an alternative
leads to the same configuration. -/
lemma Departs.same {a : Nat} (hb : P.At R l b r) (hb' : P.At R l' b r')
    (hq : P.waiting l = P.waiting l') (hf : P.frameAt l = P.frameAt l') (hd : P.Departs l a m)
    (hd' : P.Departs l' a m') : m.config = m'.config ∧ m.frame = m'.frame := by
  cases hd with
  | @choice n q h a ha =>
    cases hd' with
    | @choice n' q' h' a ha' =>
      obtain rfl : q = q' := by simpa [waiting, h, h', Move.config] using hq
      have hframe : l.frame = l'.frame := by simpa [frameAt, h, h'] using hf
      exact ⟨rfl, hframe⟩
    | requested h' =>
      obtain rfl := hb'.eq_requested h'
      exact absurd h (hb.next_ne_choice n q)
  | @requested i q h =>
    cases hd' with
    | @choice n' q' h' a ha' =>
      obtain rfl := hb.eq_requested h
      exact absurd h' (hb'.next_ne_choice n' q')
    | @requested i' q' h' =>
      obtain rfl : q = q' := by simpa [waiting, h, h', Move.config] using hq
      have hframe : i.frame = i'.frame := by simpa [frameAt, h, h'] using hf
      exact ⟨rfl, congrArg some hframe⟩

/-- Where a move between boundaries is possible, it is the only one. -/
lemma Calm.eq (hc : P.Calm R l m) (h : P.Onward l m') : m = m' := by
  have hprefix : m'.choices <+: m.choices := by
    rw [hc.choices]
    cases h with
    | choose h a ha =>
      have ho := hc.onward
      have hchoices := hc.choices
      cases ho with
      | choose h' a' ha' => simp [Place.choose] at hchoices
      | refuse h' hlt =>
        obtain ⟨rfl, -⟩ : _ ∧ _ := by simpa [h] using h'
        omega
      | _ h' => simp [h] at h'
    | _ => exact List.prefix_refl _
  exact hc.onward.unique h (List.prefix_refl _) hprefix

end Program

/-! ## Executions that are followed -/

variable {P : Program σ κ} {R : Place σ → Bool → Prop} {seen : Array κ} {log : Log}

/-- An execution that goes on from a place is followed by one that is covered.

**Proof sketch.** Either no boundary lies between, and the covered execution makes the same move; or
it waits at a state, from which the search has followed the alternative, at a boundary in the same
configuration. -/
lemma Expanded.exists_covered_onward (h : Expanded P R seen log) (hT : P.Telling R)
    {l l' m : Place σ} (hm : P.Onward l m) (hl : l'.config = l.config ∧ l'.frame = l.frame)
    (hc : P.Covered R seen l') :
    ∃ m', (m'.config = m.config ∧ m'.frame = m.frame) ∧ P.Covered R seen m' := by
  obtain ⟨hreach, n, b, k, hcalm, hb, hk⟩ := hc
  obtain ⟨m₁, hm₁, hconfig, hframe, -⟩ := hm.exists_abreast
    (⟨hl.1.symm, hl.2.symm, [], (List.append_nil _).symm, (List.append_nil _).symm⟩ :
      Place.Abreast l l' l l')
  rcases hcalm.cases_head with rfl | ⟨m', hstep, hcalm⟩
  · -- the search has gone on from the state along the same alternative
    obtain ⟨a, ha, hd⟩ := hb.exists_departs hm₁
    obtain ⟨i, hi, hik⟩ := Array.mem_iff_getElem.mp hk
    have hik : seen[i]? = some k := by rw [Array.getElem?_eq_getElem hi, hik]
    obtain ⟨_, ⟨l₁, b₁, k₁, hl₁, hb₁, hk₁, rfl⟩, hall⟩ := h.node i hi
    obtain rfl : k = k₁ := Option.some.inj (hik.symm.trans hk₁)
    obtain ⟨rfl, -⟩ := hT hreach hb hl₁ hb₁
    have ha' : a < (List.range b.arity).length := by rwa [List.length_range]
    have hfollows := hall.get ha' (hall.length_eq ▸ ha')
    simp only [List.get_eq_getElem, List.getElem_range] at hfollows
    obtain ⟨t, k₂, k', -, hk₂, hk', l₂, b₂, n, b', hl₂, hb₂, ⟨m', hd', hcalm⟩, -, hb'⟩ := hfollows
    obtain rfl : k = k₂ := Option.some.inj (hik.symm.trans hk₂)
    obtain ⟨rfl, hq, hf⟩ := hT hreach hb hl₂ hb₂
    obtain ⟨hconfig', hframe'⟩ := Program.Departs.same hb hb₂ hq hf hd hd'
    exact ⟨m', ⟨hconfig'.symm.trans hconfig.symm, hframe'.symm.trans hframe.symm⟩,
      hl₂.onward hd'.onward, n, b', k', hcalm, hb', Array.mem_of_getElem? hk'⟩
  · obtain rfl := hstep.eq hm₁
    exact ⟨m', ⟨hconfig.symm, hframe.symm⟩, hreach.onward hm₁, n, b, k, hcalm, hb, hk⟩

/-- Every execution is followed by one that is covered.

**Proof sketch.** Induction on the execution. The search has covered the start of the program. -/
theorem Expanded.exists_covered (h : Expanded P R seen log) (hT : P.Telling R) {l : Place σ}
    (hl : P.Reaches l) :
    ∃ l', (l'.config = l.config ∧ l'.frame = l.frame) ∧ P.Covered R seen l' := by
  induction hl with
  | refl =>
    obtain ⟨t, k, -, hk, m, b, -, hb, hcalm⟩ := h.start
    exact ⟨_, ⟨rfl, rfl⟩, .refl, m, b, k, hcalm, hb, Array.mem_of_getElem? hk⟩
  | tail _ hm ih =>
    obtain ⟨l', hl', hc⟩ := ih
    exact h.exists_covered_onward hT hm hl' hc

/-- The ends that have been numbered are the ends of all executions. -/
lemma Expanded.foundEnd_iff (h : Expanded P R seen log) (hT : P.Telling R) {q : σ} :
    P.FoundEnd R seen q ↔ ∃ l ending, P.Reaches l ∧ P.next l.config = .ended ending q := by
  constructor
  · rintro ⟨l, ending, -, hl, hend, -⟩
    exact ⟨l, ending, hl, hend⟩
  · rintro ⟨l, ending, hl, hend⟩
    obtain ⟨l', ⟨hconfig, -⟩, hreach, m, b, k, hcalm, hb, hk⟩ := h.exists_covered hT hl
    rw [← hconfig] at hend
    rcases hcalm.cases_head with rfl | ⟨m', hstep, -⟩
    · cases hb with
      | finished h he hi hr => exact ⟨l', ending, k, hreach, hend, .finished h he hi hr, hk⟩
      | _ h => simp [hend] at h
    · cases hstep.onward with
      | choose h => simp [hend] at h
      | _ h => simp [hend] at h

namespace Exploration

variable [DecidableEq κ] {M : Type} {A : Audience L} {B : Audience M} {name : String}
  {maxStates : Option Int} {outside : Scene} {l₀ : L} {m₀ : M} {x y : Exploration σ (L × Log) κ}
  {x' y' : Exploration σ (M × Log) κ} {R' : Place σ → Bool → Prop} {fuel fuel' : Nat}

/-- A search without a limit on the depth, which nobody ends and in which no listener fails, has found
every end of the program when it returns, provided that fingerprints tell states. What the listeners
answer does not matter, not even if they answer differently each time. -/
theorem ends_found (hP : P.Deterministic) (hH : P.Honest) (hT : P.Telling R)
    (hx : x = fresh name none maxStates outside l₀) (hR : Heeds P R A x)
    (hrun : run P A.recorded fuel x = (y, some .completed)) (hy : y.search.terminated = false)
    (q : σ) :
    P.FoundEnd R y.search.seen q ↔ ∃ l ending, P.Reaches l ∧ P.next l.config = .ended ending q := by
  obtain ⟨n, rfl, hover⟩ := run_eq_some hrun
  have h : (after P A.recorded n x).Undisturbed := ⟨hy, by rw [hover]; rfl⟩
  exact (expanded_of_completed hP hH hx hR h hover).foundEnd_iff hT

/-- The listeners of such searches do not change the ends that are found. -/
theorem same_ends (hP : P.Deterministic) (hH : P.Honest) (hT : P.Telling R) (hT' : P.Telling R')
    (hx : x = fresh name none maxStates outside l₀) (hR : Heeds P R A x)
    (hrun : run P A.recorded fuel x = (y, some .completed)) (hy : y.search.terminated = false)
    (hx' : x' = fresh name none maxStates outside m₀) (hR' : Heeds P R' B x')
    (hrun' : run P B.recorded fuel' x' = (y', some .completed))
    (hy' : y'.search.terminated = false) (q : σ) :
    P.FoundEnd R y.search.seen q ↔ P.FoundEnd R' y'.search.seen q :=
  (ends_found hP hH hT hx hR hrun hy q).trans (ends_found hP hH hT' hx' hR' hrun' hy' q).symm

end Exploration

end StateAtlas
