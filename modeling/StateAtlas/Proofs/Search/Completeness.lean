import Mathlib.Data.List.Forall2
import StateAtlas.Proofs.Program.Coins
import StateAtlas.Proofs.Search.Crossing

set_option autoImplicit false

/-!
# Completeness of the search

The fingerprints of all boundaries that a program can reach are the vertices of a graph, and a
search walks along its edges. If the fingerprint of a boundary and an alternative determine the
fingerprint of the next boundary, then a search that has come to its end has seen every vertex and
announced every edge, once.

## Main definitions

* `StateAtlas.Program.Occurs` — a fingerprint is reached under some sequence of choices.
* `StateAtlas.Program.Opens` — a fingerprint is that of a first boundary.
* `StateAtlas.Program.Follows` — a fingerprint follows another one along an alternative.
* `StateAtlas.Program.Adequate` — equal fingerprints have equal continuations.
* `StateAtlas.Expanded` — every state seen has been expanded.
* `StateAtlas.ExpandedAt` — a single state has been expanded.

## Main results

* `StateAtlas.Exploration.expanded_of_completed` — a search that has come to its end has expanded
  every state it has seen.
* `StateAtlas.Expanded.exists_mem_seen` — it has seen the fingerprint of every boundary.
* `StateAtlas.Exploration.completeness` — states and transitions of a search that has come to its
  end are those of the graph.
-/

namespace StateAtlas

variable {σ L κ : Type}

/-! ## The graph of fingerprints -/

namespace Program

variable (P : Program σ κ) (R : Place σ → Bool → Prop)

/-- A fingerprint that boundaries of the program have under some sequence of choices. -/
def Occurs (k : κ) : Prop := ∃ l b, P.Reaches l ∧ P.At R l b (.ok k)

/-- What comes of making the fingerprint of a boundary that comes first in an execution. -/
def Opens (r : Except Fault κ) : Prop :=
  ∃ l b, P.Reaches l ∧ P.At R l b r ∧ Relation.ReflTransGen (P.Calm R) (P.startPlace 0) l

/-- What comes of making the fingerprint of a boundary that comes next after a boundary with some
fingerprint when the program follows an alternative there. -/
def Follows (k : κ) (a : Nat) (r : Except Fault κ) : Prop :=
  ∃ l b m b', P.Reaches l ∧ P.At R l b (.ok k) ∧ P.Leg R l a m ∧ P.Reaches m ∧ P.At R m b' r

/-- Equal fingerprints have equal continuations: the fingerprint of a boundary determines how many
alternatives it has, and together with an alternative it determines the next fingerprint, or that
there is none. The listeners, whose answers are `R`, answer everywhere. -/
structure Adequate : Prop where
  answered : ∀ l, R l true ∨ R l false
  opens : ∀ {r r'}, P.Opens R r → P.Opens R r' → r = r'
  arity : ∀ {l l' b b' k}, P.Reaches l → P.At R l b (.ok k) → P.Reaches l' →
    P.At R l' b' (.ok k) → b.arity = b'.arity
  follows : ∀ {k a r₁ r₂}, P.Follows R k a r₁ → P.Follows R k a r₂ → r₁ = r₂

variable {P R}

/-- A move of an execution between boundaries is calm, and any other one departs from a boundary
with one of its alternatives. -/
lemma Onward.calm_or_departs (hR : ∀ l, R l true ∨ R l false) {l m : Place σ}
    (h : P.Onward l m) :
    P.Calm R l m ∨ ∃ b r, ∃ a < b.arity, P.At R l b r ∧ P.Departs l a m := by
  cases h with
  | internal h => exact .inl ⟨.internal h, rfl, by simp [h]⟩
  | print h => exact .inl ⟨.print h, rfl, by simp [h]⟩
  | effect h => exact .inl ⟨.effect h, rfl, by simp [h]⟩
  | refuse h hn => exact .inl ⟨.refuse h hn, rfl, by simp [h]⟩
  | @choose n q h a ha =>
    have hn : a < n.toNat := by omega
    exact .inr ⟨.choice n.toNat, _, a, hn, .choice (i := 0) h (by omega) rfl, .choice h a ha⟩
  | instruction h =>
    by_cases hprev : l.previous = none
    · exact .inl ⟨.instruction h, rfl, fun _ _ _ hne => absurd hprev hne⟩
    · rcases hR l with hR | hR
      · exact .inr ⟨.requested, _, 0, Nat.zero_lt_one, .requested (i := 0) h hprev hR rfl,
          .requested h⟩
      · exact .inl ⟨.instruction h, rfl, fun _ _ _ _ => hR⟩

/-- In a program that only chooses, equal configurations have equal continuations. -/
lemma Branching.adequate {P : Program σ σ} {inner : σ → Prop} [DecidablePred inner]
    {child : σ → Nat → σ} (h : P.Branching inner child) {R : Place σ → Bool → Prop}
    (hR : ∀ l, R l true ∨ R l false) : P.Adequate R where
  answered := hR
  opens := by
    have hopens : ∀ r, P.Opens R r → r = .ok (P.start 0) := by
      rintro r ⟨l, b, -, hb, hcalm⟩
      rcases hcalm.cases_head with rfl | ⟨m, hc, -⟩
      · exact (h.boundary hb).1
      · exact absurd hc h.not_calm
    exact fun {_ _} hk hk' => (hopens _ hk).trans (hopens _ hk').symm
  arity := fun _ hb _ hb' => by
    rw [(h.boundary hb).2, (h.boundary hb').2, ← Except.ok.inj (h.boundary hb).1,
      ← Except.ok.inj (h.boundary hb').1]
  follows := by
    have hfollows : ∀ k a r, P.Follows R k a r → r = .ok (child k a) := by
      rintro k a r ⟨l, b, m, b', -, hb, hleg, -, hb'⟩
      rw [(h.boundary hb').1, h.leg hleg, Except.ok.inj (h.boundary hb).1]
    exact fun {_ _ _ _} hf hf' => (hfollows _ _ _ hf).trans (hfollows _ _ _ hf').symm

end Program

/-! ## Expanded states -/

variable (P : Program σ κ) (R : Place σ → Bool → Prop)

/-- Every state seen has been expanded: the announced transitions lead from the start of the
program to its first boundary, and from each state along each of its alternatives once, in
order. -/
structure Expanded (seen : Array κ) (log : Log) : Prop where
  start : ∃ (t : Nat) (k : κ), Log.targets log initialStateId = [(t : Int)] ∧ seen[t]? = some k ∧
    P.Opens R (.ok k)
  node : ∀ i < seen.size, ∃ n, IsNode P R seen i n ∧
    List.Forall₂ (fun (a : Nat) (j : Int) => ∃ (t : Nat) (k k' : κ), j = t ∧ seen[i]? = some k ∧
      seen[t]? = some k' ∧ P.Follows R k a (.ok k')) (List.range n) (Log.targets log i)
  sources : ∀ e ∈ Log.edges log, e.1 = initialStateId ∨ ∃ i < seen.size, e.1 = (i : Int)

/-- A state has been expanded: the announced transitions lead from it along each of its
alternatives once, in order. -/
def ExpandedAt (seen : Array κ) (log : Log) (i : Nat) : Prop :=
  ∃ n, IsNode P R seen i n ∧
    List.Forall₂ (fun (a : Nat) (j : Int) => ∃ (t : Nat) (k k' : κ), j = t ∧ seen[i]? = some k ∧
      seen[t]? = some k' ∧ P.Follows R k a (.ok k')) (List.range n) (Log.targets log i)

variable {P R} {seen : Array κ} {log : Log}

/-- What follows an expanded state along one of its alternatives is a state.

**Proof sketch.** The alternative has been followed from the state, at a boundary with the same
fingerprint, and it has led to a state. By adequacy this is the one that follows. -/
lemma ExpandedAt.mem_of_follows {i : Nat} (h : ExpandedAt P R seen log i) (hA : P.Adequate R)
    {l : Place σ} {b : Boundary} {k : κ} {r : Except Fault κ} {a : Nat} (hl : P.Reaches l)
    (hb : P.At R l b (.ok k)) (hk : seen[i]? = some k) (ha : a < b.arity)
    (hf : P.Follows R k a r) : ∃ k' ∈ seen, r = .ok k' := by
  obtain ⟨n, ⟨l₁, b₁, k₁, hl₁, hb₁, hk₁, rfl⟩, hall⟩ := h
  obtain rfl : k = k₁ := Option.some.inj (hk.symm.trans hk₁)
  have ha₁ : a < (List.range b₁.arity).length := by
    rw [List.length_range, ← hA.arity hl hb hl₁ hb₁]
    exact ha
  have hj := hall.get ha₁ (hall.length_eq ▸ ha₁)
  simp only [List.get_eq_getElem, List.getElem_range] at hj
  obtain ⟨t, k₂, k₃, -, hk₂, hk₃, hf'⟩ := hj
  obtain rfl : k = k₂ := Option.some.inj (hk.symm.trans hk₂)
  exact ⟨k₃, Array.mem_of_getElem? hk₃, hA.follows hf hf'⟩

/-- A state that has been numbered is a boundary of some execution. -/
lemma Expanded.occurs (h : Expanded P R seen log) {k : κ} (hk : k ∈ seen) : P.Occurs R k := by
  obtain ⟨i, hi, hik⟩ := Array.mem_iff_getElem.mp hk
  obtain ⟨-, ⟨l, b, k', hl, hb, hk', -⟩, -⟩ := h.node i hi
  rw [Array.getElem?_eq_getElem hi, hik, Option.some.injEq] at hk'
  exact hk' ▸ ⟨l, b, hl, hb⟩

/-- What follows a state along one of its alternatives is a state. -/
lemma Expanded.mem_of_follows (h : Expanded P R seen log) (hA : P.Adequate R) {l : Place σ}
    {b : Boundary} {k : κ} {r : Except Fault κ} {a : Nat} (hl : P.Reaches l)
    (hb : P.At R l b (.ok k)) (hk : k ∈ seen) (ha : a < b.arity) (hf : P.Follows R k a r) :
    ∃ k' ∈ seen, r = .ok k' := by
  obtain ⟨i, hi, hik⟩ := Array.mem_iff_getElem.mp hk
  have hnode : ExpandedAt P R seen log i := h.node i hi
  exact hnode.mem_of_follows hA hl hb (by rw [Array.getElem?_eq_getElem hi, hik]) ha hf

/-- Every boundary that is reached has a fingerprint, which is that of a state.

**Proof sketch.** Every place of every execution lies on the way to a first boundary, or on a leg
from a boundary that is a state; this goes by induction on the execution. The next boundary on the
way is a state then, too. -/
theorem Expanded.exists_mem_seen (h : Expanded P R seen log) (hA : P.Adequate R) {l : Place σ}
    {b : Boundary} {r : Except Fault κ} (hl : P.Reaches l) (hb : P.At R l b r) :
    ∃ k ∈ seen, r = .ok k := by
  -- where a place lies
  let Covered (l : Place σ) : Prop := Relation.ReflTransGen (P.Calm R) (P.startPlace 0) l ∨
    ∃ l' b k a, P.Reaches l' ∧ P.At R l' b (.ok k) ∧ k ∈ seen ∧ a < b.arity ∧ P.Leg R l' a l
  have state_of_covered : ∀ {l b r}, P.Reaches l → Covered l → P.At R l b r →
      ∃ k ∈ seen, r = .ok k := by
    intro l b r hl hcov hb
    rcases hcov with hcalm | ⟨l', b', k', a, hl', hb', hk', ha, hleg⟩
    · obtain ⟨t, k₀, -, hk₀, hopens⟩ := h.start
      exact ⟨k₀, Array.mem_of_getElem? hk₀, hA.opens ⟨l, b, hl, hb, hcalm⟩ hopens⟩
    · exact h.mem_of_follows hA hl' hb' hk' ha ⟨l', b', l, b, hl', hb', hleg, hl, hb⟩
  have covered : ∀ {l}, P.Reaches l → Covered l := by
    intro l hl
    induction hl with
    | refl => exact .inl .refl
    | @tail l m hl ho ih =>
      rcases ho.calm_or_departs hA.answered with hc | ⟨b, r, a, ha, hb, hd⟩
      · rcases ih with hcalm | ⟨l', b, k, a, hl', hb, hk, ha, l'', hd, hcalm⟩
        · exact .inl (hcalm.tail hc)
        · exact .inr ⟨l', b, k, a, hl', hb, hk, ha, l'', hd, hcalm.tail hc⟩
      · obtain ⟨k, hk, rfl⟩ := state_of_covered hl ih hb
        exact .inr ⟨l, b, k, a, hl, hb, hk, ha, m, hd, .refl⟩
  exact state_of_covered hl (covered hl) hb

/-- Every fingerprint that occurs is that of a state. -/
lemma Expanded.mem_seen (h : Expanded P R seen log) (hA : P.Adequate R) {k : κ}
    (hk : P.Occurs R k) : k ∈ seen := by
  obtain ⟨l, b, hl, hb⟩ := hk
  obtain ⟨k', hk', heq⟩ := h.exists_mem_seen hA hl hb
  exact Except.ok.inj heq ▸ hk'

namespace Exploration

variable {A : Audience L}

/-! ## The end of a search -/

/-- The transitions announced from a state are those its departures have led to. -/
lemma targets_of_crossings {crossings : List (List PathEntry × Nat)}
    {ledger : List (List PathEntry)} {transit : Option (List PathEntry)}
    (h : Crossings P R crossings ledger transit seen log) (i : Int) :
    Log.targets log i =
      (crossings.filter fun c => Search.topState c.1 = i).map fun c => (c.2 : Int) := by
  rw [Log.targets, h.edges, List.reverse_reverse, List.filter_map, List.map_map]
  rfl

/-- The transitions announced from a state lead, one for each of its departures, to what follows
along the alternative of the departure. -/
lemma forall₂_targets {crossings : List (List PathEntry × Nat)}
    {ledger : List (List PathEntry)}
    (h : Crossings P R crossings ledger none seen log) (i : Nat) :
    List.Forall₂ (fun π j => ∃ t : Nat, j = (t : Int) ∧ Crossed P R seen π t)
      (departuresFrom ledger i) (Log.targets log i) := by
  have hs := h.sources
  simp only [Option.toList_none, List.append_nil] at hs
  have hd : departuresFrom ledger i =
      (crossings.filter fun c => Search.topState c.1 = (i : Int)).map Prod.fst := by
    have hstart : Search.topState [] ≠ (i : Int) := by simp [Search.topState, initialStateId]
    have hfilter : departuresFrom ledger i =
        ([] :: ledger).filter fun π => Search.topState π = (i : Int) := by
      rw [List.filter_cons_of_neg (by simpa using hstart)]
      rfl
    rw [hfilter, ← hs, List.filter_map]
    rfl
  rw [hd, targets_of_crossings h, List.forall₂_map_left_iff, List.forall₂_map_right_iff,
    List.forall₂_same]
  exact fun c hc => ⟨c.2, rfl, h.crossed c (List.mem_filter.mp hc).1⟩

/-- A state from which all alternatives have departed has been expanded. -/
lemma expandedAt_of_departures {crossings : List (List PathEntry × Nat)}
    {ledger : List (List PathEntry)} (h : Crossings P R crossings ledger none seen log) {n : Nat}
    {e : PathEntry} {below : List PathEntry} (hn : IsNode P R seen e.state n)
    (hd : departuresFrom ledger e.state = firstAlternatives e below n) :
    ExpandedAt P R seen log e.state := by
  refine ⟨n, hn, ?_⟩
  have hall := forall₂_targets h e.state
  rw [hd, firstAlternatives, List.forall₂_map_left_iff] at hall
  refine hall.imp fun a j hj => ?_
  obtain ⟨t, rfl, m, b, k', hm, hb, hk', l, b', k, hl, hb', hk, hleg⟩ := hj
  exact ⟨t, k, k', rfl, hk, hk', l, b', m, b, hl, hb', hleg, hm, hb⟩

/-- An end state, from which nothing has departed, has been expanded. -/
lemma expandedAt_of_leaf {crossings : List (List PathEntry × Nat)}
    {ledger : List (List PathEntry)} (h : Crossings P R crossings ledger none seen log) {i : Nat}
    (hn : IsNode P R seen i 0) (hd : departuresFrom ledger i = []) : ExpandedAt P R seen log i := by
  have hall := forall₂_targets h i
  rw [hd, List.forall₂_nil_left_iff] at hall
  exact ⟨0, hn, by rw [hall]; exact .nil⟩

/-- When all departures have led on, the first of them is from the start of the program. -/
lemma exists_first_crossing {crossings : List (List PathEntry × Nat)}
    {ledger : List (List PathEntry)} (h : Crossings P R crossings ledger none seen log) :
    ∃ t k rest, crossings = ([], t) :: rest ∧ rest.map Prod.fst = ledger ∧ seen[t]? = some k ∧
      P.Opens R (.ok k) := by
  have hs := h.sources
  simp only [Option.toList_none, List.append_nil] at hs
  obtain ⟨⟨π, t⟩, rest, rfl⟩ := List.exists_cons_of_ne_nil (l := crossings) (by rintro rfl; simp at hs)
  obtain ⟨rfl, hrest⟩ := List.cons.inj hs
  obtain ⟨m, b, k, hm, hb, hk, hcalm⟩ := h.crossed _ List.mem_cons_self
  exact ⟨t, k, rest, rfl, hrest, hk, m, b, hm, hb, hcalm⟩

variable [DecidableEq κ]

/-- Fingerprints are seen one after the other, none of them twice. -/
lemma nodup_seen_turn {s s' : Search L κ} {stage stage' : Stage σ}
    (hT : Turn P A s stage s' stage') (h : s.seen.toList.Nodup) : s'.seen.toList.Nodup := by
  have hconcluded : ∀ scene top previous next,
      (concluded A s scene top previous next).unasked.seen.toList.Nodup :=
    fun _ _ _ _ => by simpa using h
  cases hT with
  | instruct => simpa using h
  | request _ _ _ _ ht =>
    subst ht
    rw [Search.told_seen, Search.entered_seen]
    exact Search.nodup_seenAfter (hconcluded _ _ _ _)
  | requestHalt _ _ _ _ ht hh =>
    subst ht
    rw [hh.seen_eq]
    exact Search.nodup_seenAfter (hconcluded _ _ _ _)
  | choose =>
    rw [Search.entered_seen]
    exact Search.nodup_seenAfter h
  | chooseHalt _ _ _ _ hh =>
    rw [hh.seen_eq]
    exact Search.nodup_seenAfter h
  | leave _ _ _ hs hl =>
    obtain ⟨l, rfl⟩ := hs.eq
    rw [hl.kept.1]
    exact h
  | finish _ _ _ _ _ _ hs hu hl =>
    obtain ⟨l, rfl⟩ := hs.eq
    rw [hl.kept.1, Search.entered_seen, hu]
    exact Search.nodup_seenAfter (by simpa using h)
  | _ => exact h

section Runs

variable {name : String} {maxStates : Option Int} {outside : Scene} {l₀ : L}
  {x : Exploration σ (L × Log) κ}

/-- No fingerprint has been seen twice in an undisturbed run. -/
lemma nodup_seen_after {depthLimit : Option Int}
    (hx : x = fresh name depthLimit maxStates outside l₀) {n : Nat}
    (h : (after P A.recorded n x).Undisturbed) :
    (after P A.recorded n x).search.seen.toList.Nodup := by
  induction n with
  | zero =>
    subst hx
    exact .nil
  | succ n ih =>
    have hn := undisturbed_of_le (hx ▸ orderly_fresh) (Nat.le_succ n) h
    rw [after_succ] at h ⊢
    exact nodup_seen_turn (turn_of_undisturbed h) (ih hn)

/-- A search that has come to its end has expanded every state it has seen.

**Proof sketch.** Nothing is on the path any more, so the ledger of departures is closed, and all
departures have led on to transitions. -/
theorem expanded_of_completed (hP : P.Deterministic) (hH : P.Honest)
    (hx : x = fresh name none maxStates outside l₀) (hR : Heeds P R A x) {n : Nat}
    (h : (after P A.recorded n x).Undisturbed)
    (hover : (after P A.recorded n x).stage = .ended .completed) :
    Expanded P R (after P A.recorded n x).search.seen
      (after P A.recorded n x).search.listeners.2 := by
  obtain ⟨-, hl⟩ := ledger_after hP hH hx hR h
  obtain ⟨crossings, hc⟩ := crossings_after hP hH hx hR h
  rw [hover] at hl hc
  obtain ⟨t, k, rest, rfl, hrest, hk, hopens⟩ := exists_first_crossing hc
  refine ⟨⟨t, k, ?_, hk, hopens⟩, fun i hi => ?_, fun e he => ?_⟩
  · -- no departure is from the start of the program
    have hnone : (rest.filter fun c => Search.topState c.1 = initialStateId) = [] := by
      rw [List.filter_eq_nil_iff]
      intro c hc
      obtain ⟨e, below, he, -⟩ := hl.known c.1 (hrest ▸ List.mem_map_of_mem hc)
      simp only [he, Search.topState, initialStateId, decide_eq_true_eq]
      omega
    rw [targets_of_crossings hc, List.filter_cons_of_pos (by simp [Search.topState]), hnone]
    rfl
  · rcases hl.closed i hi (by simp [live]) with ⟨hd, hn⟩ | ⟨e, below, rfl, hn, hd⟩
    · exact expandedAt_of_leaf hc (hn.resolve_left (by simp)) hd
    · exact expandedAt_of_departures hc hn hd
  · rw [hc.edges, List.mem_reverse] at he
    obtain ⟨c, hmem, rfl⟩ := List.mem_map.mp he
    rcases List.mem_cons.mp hmem with rfl | hmem
    · exact .inl rfl
    · obtain ⟨e, below, he, hlt⟩ := hl.known c.1 (hrest ▸ List.mem_map_of_mem hmem)
      exact .inr ⟨e.state, hlt, by rw [he]; rfl⟩

/-- A search without a limit on the depth, which nobody ends and in which no listener fails, is
complete and exact when it returns, provided that equal fingerprints have equal continuations: its
states are the fingerprints that occur under any sequence of choices, and its transitions are
those between them. One leads from the start of the program, one along each alternative of each
boundary, and none from an end state. In particular every boundary has a fingerprint.

**Proof sketch.** Every state has been expanded. By adequacy what has been found behind a boundary
is what there is behind every boundary with its fingerprint. -/
theorem completeness (hP : P.Deterministic) (hH : P.Honest) (hA : P.Adequate R)
    (hx : x = fresh name none maxStates outside l₀) (hR : Heeds P R A x) {fuel : Nat}
    {y : Exploration σ (L × Log) κ} (hrun : run P A.recorded fuel x = (y, some .completed))
    (hy : y.search.terminated = false) :
    (∀ k, k ∈ y.search.seen ↔ P.Occurs R k) ∧ y.search.seen.toList.Nodup ∧
      (∃ k, P.Opens R (.ok k) ∧ Log.targets y.search.listeners.2 initialStateId =
        [(y.search.identify k : Int)]) ∧
      (∀ l b r, P.Reaches l → P.At R l b r → ∃ k, r = .ok k ∧
        List.Forall₂ (fun (a : Nat) (j : Int) =>
            ∃ k', P.Follows R k a (.ok k') ∧ j = (y.search.identify k' : Int))
          (List.range b.arity) (Log.targets y.search.listeners.2 (y.search.identify k))) ∧
      ∀ e ∈ Log.edges y.search.listeners.2, e.1 = initialStateId ∨
        ∃ k, P.Occurs R k ∧ e.1 = (y.search.identify k : Int) := by
  obtain ⟨n, rfl, hover⟩ := run_eq_some hrun
  have h : (after P A.recorded n x).Undisturbed := ⟨hy, by rw [hover]; rfl⟩
  have hnodup := nodup_seen_after hx h
  have hexp := expanded_of_completed hP hH hx hR h hover
  generalize (after P A.recorded n x).search = s at hnodup hexp ⊢
  have hid : ∀ {i : Nat} {k : κ}, s.seen[i]? = some k → s.identify k = i := fun hk =>
    Search.identify_of_getElem? hnodup hk
  refine ⟨fun k => ⟨hexp.occurs, hexp.mem_seen hA⟩, hnodup, ?_, ?_, ?_⟩
  · obtain ⟨t, k, ht, hk, hopens⟩ := hexp.start
    exact ⟨k, hopens, by rw [ht, hid hk]⟩
  · intro l b r hl hb
    obtain ⟨k, hk, rfl⟩ := hexp.exists_mem_seen hA hl hb
    refine ⟨k, rfl, ?_⟩
    obtain ⟨i, hi, hik⟩ := Array.mem_iff_getElem.mp hk
    have hik : s.seen[i]? = some k := by rw [Array.getElem?_eq_getElem hi, hik]
    obtain ⟨n, ⟨l₁, b₁, k₁, hl₁, hb₁, hk₁, rfl⟩, hall⟩ := hexp.node i hi
    obtain rfl : k = k₁ := Option.some.inj (hik.symm.trans hk₁)
    rw [hid hik, hA.arity hl hb hl₁ hb₁]
    refine hall.imp fun a j hj => ?_
    obtain ⟨t, k₂, k', rfl, hk₂, hk', hf⟩ := hj
    obtain rfl : k = k₂ := Option.some.inj (hik.symm.trans hk₂)
    exact ⟨k', hf, by rw [hid hk']⟩
  · intro e he
    rcases hexp.sources e he with h | ⟨i, hi, h⟩
    · exact .inl h
    · have hk : s.seen[i]? = some s.seen[i] := Array.getElem?_eq_getElem hi
      exact .inr ⟨s.seen[i], hexp.occurs (Array.getElem_mem hi), by rw [h, hid hk]⟩

/-- Equal numbers of throws and heads have equal continuations. -/
lemma coins_adequate : coins.Adequate fun _ _ => True :=
  coins_branching.adequate fun _ => .inl trivial

/-- The search through the throws of two coins has found what there is. -/
theorem completeness_coins :
    (run coins Audience.mute.recorded 18
        (fresh "coins" none none ⟨.empty, .empty, #[]⟩ ())).2 = some .completed ∧
      ∀ k, k ∈ #[(0, 0), (1, 0), (2, 0), (2, 1), (1, 1), (2, 2)] ↔
        coins.Occurs (fun _ _ => True) k := by
  have hrun : (run coins Audience.mute.recorded 18
      (fresh "coins" none none ⟨.empty, .empty, #[]⟩ ())).2 = some .completed := by
    decide +kernel
  have hseen : (run coins Audience.mute.recorded 18
      (fresh "coins" none none ⟨.empty, .empty, #[]⟩ ())).1.search.seen =
        #[(0, 0), (1, 0), (2, 0), (2, 1), (1, 1), (2, 2)] := by decide +kernel
  have hterm : (run coins Audience.mute.recorded 18
      (fresh "coins" none none ⟨.empty, .empty, #[]⟩ ())).1.search.terminated = false := by
    decide +kernel
  have h := completeness coins_deterministic coins_honest coins_adequate rfl (heeds_true _)
    (Prod.ext rfl hrun) hterm
  exact ⟨hrun, hseen ▸ h.1⟩

end Runs

end Exploration

end StateAtlas
