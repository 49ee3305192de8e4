import StateAtlas.Proofs.Code.Request
import StateAtlas.Proofs.Program.Coins
import StateAtlas.Proofs.Search.Anchor
import StateAtlas.Proofs.Search.Reexecution

set_option autoImplicit false

/-!
# Re-execution is invisible

A search that executes the program again and again tells its listeners what a search tells them
that keeps snapshots of the program: the same notices in the same order, with the same answers to
their questions. While an execution repeats choices nothing is said at all.

## Main definitions

* `StateAtlas.Exploration.Poised` — the last thing said was a retreat, if choices are repeated.

## Main results

* `StateAtlas.Exploration.restored_said` — a choice is restored right after a retreat.
* `StateAtlas.Exploration.restored_place` — when it is restored, the program stands where it was
  discovered and has repeated all choices of the path.
* `StateAtlas.Exploration.heard_said` — the instructions announced on a path are those of one
  uninterrupted execution.
* `StateAtlas.Exploration.reexecution_invisible` — the search and the search with snapshots say
  the same.
* `StateAtlas.Exploration.renewed_found_twice` — a state that shows what every execution makes anew
  is found again by the search, and not by the one with snapshots.
-/

namespace StateAtlas

open Program

variable {σ L κ : Type}

/-- The last thing said was that a boundary has been left. -/
def Log.EndsInRetreat (log : Log) : Prop := ∃ d earlier, log = d :: earlier ∧ d.notice = .backtracked

/-- A delivery that is not among the new ones is among the old ones. -/
lemma Log.suffix_of_append {N : Notice → Prop} {new log earlier : Log} {d : Delivery}
    (h : d :: earlier <:+ new ++ log) (hd : N d.notice) (hnew : ∀ d ∈ new, ¬ N d.notice) :
    d :: earlier <:+ log := by
  induction new with
  | nil => exact h
  | cons d' new ih =>
    rcases List.suffix_cons_iff.mp h with heq | h
    · obtain ⟨rfl, -⟩ := List.cons.inj heq
      exact absurd hd (hnew d List.mem_cons_self)
    · exact ih h fun d hd => hnew d (List.mem_cons_of_mem _ hd)

/-- What has been said before a delivery is shorter than what has been said with it. -/
lemma Log.not_suffix {log earlier : Log} {d : Delivery} (h : d :: earlier <:+ log) :
    ¬ log <:+ earlier := fun h' => by
  have hlen := h.length_le
  have hlen' := h'.length_le
  rw [List.length_cons] at hlen
  omega

namespace Exploration

variable {P : Program σ κ} {A : Audience L}

/-! ## Silence -/

/-- A search that is about to repeat choices, or is repeating them, has said nothing since it has
left a boundary. -/
def Poised (s : Search (L × Log) κ) : Stage σ → Prop
  | .waiting => s.path = []
  | .launching => s.path = [] ∨ Log.EndsInRetreat s.listeners.2
  | .executing _ w => w.stopping = true ∨ w.replay = [] ∨ Log.EndsInRetreat s.listeners.2
  | .ended _ => True

/-- An execution that stays on its way in silence is still poised. -/
lemma Repeats.poised {s t : Search (L × Log) κ} {p : σ} {w : Walk} {new : Log} {stage : Stage σ}
    (h : Repeats w new stage) (hlog : t.listeners.2 = new ++ s.listeners.2)
    (hs : Poised s (.executing p w)) : Poised t stage := by
  obtain ⟨p', w', rfl, hw' | hr' | ⟨rfl, hw, hr⟩⟩ := h
  · exact .inl hw'
  · exact .inr (.inl hr')
  · rcases hs with hs | hs | hs
    · simp [hw] at hs
    · exact absurd hs hr
    · exact .inr (.inr (by rwa [hlog]))

variable [DecidableEq κ]

/-- A move keeps a search poised. -/
lemma poised_step {x : Exploration σ (L × Log) κ} (h : Poised x.search x.stage) :
    Poised (step P A.recorded x).search (step P A.recorded x).stage := by
  obtain ⟨s, stage, printed⟩ := x
  cases stage with
  | waiting =>
    simp only [step, begin]
    cases hn : s.notify A.recorded s.outside none .started with
    | mk t f =>
      obtain rfl : t = s.told A.recorded s.outside none .started := Search.eq_told _ hn
      cases f with
      | some f => trivial
      | none => exact .inl h
  | launching =>
    simp only [step, launch]
    split
    · obtain ⟨new, -, -, e, he⟩ := finish_said (σ := σ) (A := A) s
      rw [he]
      trivial
    · rcases h with h | h
      · exact .inr (.inl (by simp [newWalk, Search.replay, show s.path = [] from h]))
      · exact .inr (.inr h)
  | ended e => trivial
  | executing p w =>
    cases hp : P.next p with
    | instruction i q =>
      obtain ⟨new, hlog, -, hrep⟩ := onInstruction_said (A := A) (s := s) (w := w) hp
      simpa only [step, hp] using hrep.poised hlog h
    | choice n q =>
      obtain ⟨new, hlog, -, hrep⟩ := onChoice_said (A := A) (s := s) (w := w) hp
      simpa only [step, hp] using hrep.poised hlog h
    | ended ending q =>
      obtain ⟨new, hlog, -, hstage⟩ := onEnd_said (A := A) (s := s) (w := w) hp
      simp only [step, hp]
      rcases hstage with ⟨e, he⟩ | ⟨hst, d, earlier, rfl, hd⟩
      · rw [he]
        trivial
      · rw [hst]
        exact .inr ⟨d, earlier ++ s.listeners.2, hlog, hd⟩
    | effect e q =>
      simp only [step, hp]
      split <;> exact h
    | _ =>
      simp only [step, hp]
      exact h

section Runs

variable {name : String} {depthLimit maxStates : Option Int} {outside : Scene} {l₀ : L}
  {x : Exploration σ (L × Log) κ}

/-- A search is poised at every moment. -/
lemma poised_after (hx : x = fresh name depthLimit maxStates outside l₀) (n : Nat) :
    Poised (after P A.recorded n x).search (after P A.recorded n x).stage := by
  induction n with
  | zero =>
    subst hx
    exact rfl
  | succ n ih =>
    rw [after_succ]
    exact poised_step ih

/-- What has been said stays said. -/
lemma said_mono {m n : Nat} (h : m ≤ n) :
    (after P A.recorded m x).search.listeners.2 <:+ (after P A.recorded n x).search.listeners.2 := by
  induction h with
  | refl => exact List.suffix_refl _
  | @step n _ ih =>
    obtain ⟨new, hlog, -⟩ := speaks_step (P := P) (A := A) (after P A.recorded n x)
    rw [after_succ, hlog]
    exact ih.trans (List.suffix_append _ _)

/-- Nothing is said between the last retreat and the restoration of a choice.

**Proof sketch.** A search that is about to restore a choice is poised. -/
theorem restored_said (hx : x = fresh name depthLimit maxStates outside l₀) (n : Nat) :
    ∀ d earlier, d :: earlier <:+ (after P A.recorded n x).search.listeners.2 →
      d.notice = .restored → Log.EndsInRetreat earlier := by
  induction n with
  | zero =>
    subst hx
    intro d earlier h
    simp [fresh, ofSearch, Search.new] at h
  | succ n ih =>
    intro d earlier h hd
    obtain ⟨new, hlog, hspeaks⟩ := speaks_step (P := P) (A := A) (after P A.recorded n x)
    rw [after_succ, hlog] at h
    have hpoised := poised_after (P := P) (A := A) hx n
    revert hspeaks hpoised
    generalize (after P A.recorded n x).stage = stage
    intro hspeaks hpoised
    cases hspeaks with
    | quiet hnew =>
      exact ih d earlier (Log.suffix_of_append (N := (· = .restored)) h hd fun d hd => (hnew d hd).2) hd
    | restored hw hr hp hn =>
      rcases List.suffix_cons_iff.mp h with heq | h
      · obtain ⟨-, rfl⟩ := List.cons.inj heq
        rcases hpoised with hs | hs | hs
        · simp [hw] at hs
        · simp [hr] at hs
        · exact hs
      · exact ih d earlier h hd
    | boundary hw hr harr hk hlater =>
      refine ih d earlier (Log.suffix_of_append (N := (· = .restored)) h hd fun d hd => ?_) hd
      rcases List.mem_append.mp hd with hd | hd
      · exact (hlater d hd).2
      · rcases List.mem_cons.mp hd with rfl | hd
        · simp [Search.arrival]
        · exact (harr.quiet d hd).2

/-- When a choice is restored, an execution stands at the place where the choice was discovered, and
where it had the fingerprint of its state. It has repeated all choices of the path but the last
one, which it follows now.

**Proof sketch.** The search is grounded. A single choice is left to be repeated, so the execution
has come to the place of the last boundary of the path. -/
theorem restored_place (hP : P.Deterministic)
    (hx : x = fresh name depthLimit maxStates outside l₀) {n : Nat}
    (h : (after P A.recorded n x).Undisturbed) {d : Delivery} {earlier : Log}
    (hd : d :: earlier <:+ (after P A.recorded (n + 1) x).search.listeners.2)
    (hnew : (after P A.recorded n x).search.listeners.2 <:+ earlier) (hr : d.notice = .restored) :
    ∃ p q w c e below l, (after P A.recorded n x).stage = .executing p w ∧
      P.next p = .choice c q ∧ (after P A.recorded n x).search.path = e :: below ∧
      w.replay = [e.choice] ∧ P.Stands p w l ∧
      (after P A.recorded n x).search.replay = l.choices ++ [e.choice] ∧
      ∃ i k, P.fingerprint i q w.frame (.choice c.toNat) = .ok k ∧
        (after P A.recorded n x).search.seen[e.state]? = some k := by
  obtain ⟨new, hlog, hspeaks⟩ := speaks_step (P := P) (A := A) (after P A.recorded n x)
  obtain ⟨leg, legs, -, -, hsit⟩ := hx ▸ grounded_after hP (heeds_true _) (hx ▸ h)
  rw [after_succ, hlog] at hd
  revert hspeaks hsit
  generalize (after P A.recorded n x).stage = stage
  intro hspeaks hsit
  cases hspeaks with
  | quiet hquiet =>
    exact absurd hnew (Log.not_suffix (Log.suffix_of_append (N := (· = .restored)) hd hr
      fun d hd => (hquiet d hd).2))
  | boundary hw hr' harr hk hlater =>
    refine absurd hnew (Log.not_suffix (Log.suffix_of_append (N := (· = .restored)) hd hr
      fun d hd => ?_))
    rcases List.mem_append.mp hd with hd | hd
    · exact (hlater d hd).2
    · rcases List.mem_cons.mp hd with rfl | hd
      · simp [Search.arrival]
      · exact (harr.quiet d hd).2
  | @restored p q w c a hw hr' hp hc =>
    obtain ⟨-, e, below, l, hpath, rfl, ho, ha, hs⟩ := stands_of_repeated hsit hw hr' hp hc
    obtain ⟨c', q', hq', -, -, i, k, hk, hseen⟩ := ha.next_eq
    obtain ⟨q'', hq'', halike, -⟩ := hs.choice hp
    obtain ⟨rfl, rfl⟩ := Move.choice.inj (hq'.symm.trans hq'')
    have he : e.options ≠ 0 := by omega
    refine ⟨p, q, w, c', e, below, l, rfl, hp, hpath, hr', hs, ?_, i, k, ?_, hseen⟩
    · simp [Search.replay_eq, hpath, PathEntry.choices, he, ha.choices]
    · rw [← hk, ho, halike.fingerprint, hs.frame]

omit [DecidableEq κ] in
/-- A boundary that is about to be announced is one of the place where the execution stands. -/
lemma Arrives.at_place {s : Search L κ} {p q : σ} {w : Walk} {top : Option FrameId} {b : Boundary}
    {before : Log} {l : Place σ} {k : κ} (h : Arrives P s p w q top b before)
    (hs : P.Stands p w l) (hk : P.fingerprint w.execution q top b = .ok k) :
    P.At (fun _ _ => True) l b (.ok k) := by
  cases h with
  | choice hp hn =>
    obtain ⟨q', hq', hb, -⟩ := choice_at hs hp hn hk
    exact hb _
  | requested hp hprev =>
    obtain ⟨q', hq', ha, -⟩ := hs.instruction hp
    exact .requested hq' (hs.previous ▸ hprev) trivial ((ha.fingerprint _ _ _).symm.trans hk)
  | finished hp he hi =>
    obtain ⟨q', hq', ha⟩ := hs.alike.exists_next hp
    exact .finished hq' he hi ((ha.fingerprint _ _ _).symm.trans hk)

omit [DecidableEq κ] in
/-- The instructions announced before a boundary are those that lead to it, if those announced so
far lead to the place where the execution stands. -/
lemma Arrives.executed {s : Search (L × Log) κ} {p q : σ} {w : Walk} {top : Option FrameId}
    {b : Boundary} {before : Log} {l : Place σ} {leg : List (Instruction × Option Instruction)}
    {legs : List (List (Instruction × Option Instruction))}
    (h : Arrives P s p w q top b before) (hs : P.Stands p w l)
    (hl : Log.legs s.listeners.2 = leg :: legs) (hh : (leg :: legs).reverse.flatten = l.heard) :
    Log.executed (before ++ s.listeners.2) = P.heardAt l b := by
  have hannounced : ∀ scene top' next, Log.executed
      (announced s scene top' w.previous next ++ s.listeners.2) =
        l.heard ++ (w.previous.map fun e => (e, next)).toList := by
    intro scene top' next
    rw [Log.executed, legs_announced hl, ← hh]
    simp
  cases h with
  | choice hp hn =>
    rw [List.nil_append, Log.executed, hl, hh]
    rfl
  | requested hp hprev =>
    obtain ⟨q', hq', -, -⟩ := hs.instruction hp
    rw [hannounced, heardAt, hq']
    simp only
    rw [Place.heard_begin, ← hs.previous]
  | finished hp he hi => rw [hannounced, heardAt, ← hs.previous]

/-- The instructions announced on the way to a boundary are those that one uninterrupted execution
runs on its way there, following the choices of the path.

**Proof sketch.** The search is grounded: the legs announced so far are those of the place where
the execution stands. What is announced right before the boundary completes the last leg. -/
theorem heard_said (hP : P.Deterministic)
    (hx : x = fresh name depthLimit maxStates outside l₀) {n : Nat}
    (h : (after P A.recorded n x).Undisturbed) {d : Delivery} {earlier : Log}
    (hd : d :: earlier <:+ (after P A.recorded (n + 1) x).search.listeners.2)
    (hnew : (after P A.recorded n x).search.listeners.2 <:+ earlier) (hr : d.notice = .advanced) :
    ∃ l b k, P.Reaches l ∧ P.At (fun _ _ => True) l b (.ok k) ∧
      d.view.stateId = (after P A.recorded n x).search.identify k ∧
      l.choices = (after P A.recorded n x).search.replay ∧
      Log.executed earlier = P.heardAt l b := by
  obtain ⟨new, hlog, hspeaks⟩ := speaks_step (P := P) (A := A) (after P A.recorded n x)
  obtain ⟨leg, legs, hl, -, hsit⟩ := hx ▸ grounded_after hP (heeds_true _) (hx ▸ h)
  rw [after_succ, hlog] at hd
  revert hspeaks hsit
  generalize (after P A.recorded n x).stage = stage
  generalize (after P A.recorded n x).search = s at hd hnew hl hlog ⊢
  intro hspeaks hsit
  cases hspeaks with
  | quiet hquiet =>
    exact absurd hnew (Log.not_suffix (Log.suffix_of_append (N := (· = .advanced)) hd hr
      fun d hd => (hquiet d hd).1))
  | restored hw hr' hp hc =>
    refine absurd hnew (Log.not_suffix (Log.suffix_of_append (N := (· = .advanced)) hd hr
      fun d hd => ?_))
    rw [List.mem_singleton.mp hd]
    simp
  | @boundary p q w top b before later k hw hr' harr hk hlater =>
    obtain ⟨l, hs, hc, hh, -⟩ := hsit.exists_underway hw hr'
    -- the delivery is that of the boundary
    rw [List.append_assoc] at hd
    have hd := Log.suffix_of_append (N := (· = .advanced)) hd hr fun d hd => (hlater d hd).1
    rw [List.cons_append] at hd
    obtain ⟨rfl, rfl⟩ : d = s.arrival (P.scene q) top b k ∧
        earlier = before ++ s.listeners.2 := by
      rcases List.suffix_cons_iff.mp hd with heq | hd
      · exact List.cons.inj heq
      · exact absurd hnew (Log.not_suffix (Log.suffix_of_append (N := (· = .advanced)) hd hr
          fun d hd => (harr.quiet d hd).1))
    exact ⟨l, b, k, hs.reaches, harr.at_place hs hk, Search.arrival_stateId _ _ _ _ _,
      hc.trans (Search.replay_eq s).symm, harr.executed hs hl hh⟩

/-! ## The search with snapshots -/

/-- The recursion over the whole tree does not come back. -/
lemma explore_ne_back (fuel : Nat) (s t : Search L κ) : Descent.explore P A fuel s ≠ .back t := by
  unfold Descent.explore
  split
  · simp
  · split
    · exact last_ne_back _ _
    · split
      · exact last_ne_back _ _
      · rename_i hne
        exact hne t

/-- The search comes to where the search with snapshots has come: to the same end, or, where that
has used up its fuel, to the same search after as many moves. -/
lemma meets_explore (hP : P.Reproducible)
    (hx : x = fresh name depthLimit maxStates outside l₀) (fuel : Nat) :
    ∃ n, (Descent.explore P A.recorded fuel x.search).search = (after P A.recorded n x).search ∧
      ((∃ s e, Descent.explore P A.recorded fuel x.search = .ended s e ∧
          (after P A.recorded n x).stage = .ended e) ∨
        (∃ s, Descent.explore P A.recorded fuel x.search = .lost s) ∧ fuel ≤ n ∧
          ∀ e, (after P A.recorded n x).stage ≠ .ended e) := by
  have hmeets := explore_simulated (A := A.recorded) hP fuel name depthLimit maxStates outside
    (l₀, [])
  change Meets P A.recorded fuel (fresh name depthLimit maxStates outside l₀) _ at hmeets
  rw [← hx] at hmeets
  have hsearch : x.search = .new name depthLimit maxStates outside (l₀, []) := by
    rw [hx]
    rfl
  have hback := explore_ne_back (P := P) (A := A.recorded) fuel x.search
  rw [← hsearch] at hmeets
  generalize Descent.explore P A.recorded fuel x.search = r at hmeets hback
  cases hmeets with
  | @settled _ n h =>
    cases r with
    | back s => exact absurd rfl (hback s)
    | lost s => simp [Descent.Outcome.settled] at h
    | ended s e =>
      simp only [Descent.Outcome.settled, Option.some.injEq, Prod.mk.injEq] at h
      exact ⟨n, h.1, .inl ⟨s, e, rfl, h.2.symm⟩⟩
  | @lost n hn h => exact ⟨n, rfl, .inr ⟨⟨_, rfl⟩, hn, h⟩⟩

/-- The search and the search with snapshots come to the same end, if any of them does, after the
same deliveries, and neither says anything that the other does not say.

**Proof sketch.** The loop goes along with the recursion: it comes to the same outcome, or has made
as many moves as the recursion had fuel. -/
lemma same_as_explored (hP : P.Reproducible)
    (hx : x = fresh name depthLimit maxStates outside l₀) :
    (∀ s e, (∃ fuel, Descent.explore P A.recorded fuel x.search = .ended s e) ↔
        ∃ fuel y, run P A.recorded fuel x = (y, some e) ∧ y.search = s) ∧
      (∀ n, ∃ fuel, (after P A.recorded n x).search.listeners.2 <:+
        (Descent.explore P A.recorded fuel x.search).search.listeners.2) ∧
      (∀ fuel, ∃ n, (Descent.explore P A.recorded fuel x.search).search =
        (after P A.recorded n x).search) := by
  refine ⟨fun s e => ⟨?_, ?_⟩, fun n => ?_, fun fuel => ?_⟩
  · rintro ⟨fuel, hfuel⟩
    obtain ⟨n, hs, ⟨s', e', he, hover⟩ | ⟨⟨s', hlost⟩, -⟩⟩ := meets_explore (A := A) hP hx fuel
    · rw [hfuel] at hs he
      obtain ⟨rfl, rfl⟩ := Descent.Outcome.ended.inj he
      obtain ⟨fuel', hrun⟩ := exists_run_eq hover
      exact ⟨fuel', _, hrun, hs.symm⟩
    · rw [hfuel] at hlost
      simp at hlost
  · rintro ⟨fuel, y, hrun, rfl⟩
    obtain ⟨m, rfl, hm⟩ := run_eq_some hrun
    refine ⟨m + 1, ?_⟩
    obtain ⟨n, hs, ⟨s', e', he, hover⟩ | ⟨-, hn, hnot⟩⟩ := meets_explore (A := A) hP hx (m + 1)
    · have hmn : after P A.recorded m x = after P A.recorded n x := by
        rcases Nat.le_total m n with hle | hle
        · exact (after_of_over hm hle).symm
        · exact after_of_over hover hle
      rw [he] at hs ⊢
      rw [hmn, hover] at hm
      obtain rfl : e' = e := by simpa using hm
      rw [hmn, ← hs]
      rfl
    · have hover : (after P A.recorded n x).stage = .ended e := by
        rw [after_of_over hm (Nat.le_trans (Nat.le_succ m) hn), hm]
      exact absurd hover (hnot e)
  · obtain ⟨m, hs, ⟨s', e', -, hover⟩ | ⟨-, hn, -⟩⟩ := meets_explore (A := A) hP hx n
    · refine ⟨n, ?_⟩
      rw [hs]
      rcases Nat.le_total n m with hle | hle
      · exact said_mono hle
      · exact after_of_over hover hle ▸ List.suffix_refl _
    · exact ⟨n, hs ▸ said_mono hn⟩
  · obtain ⟨n, hs, -⟩ := meets_explore (A := A) hP hx fuel
    exact ⟨n, hs⟩

omit [DecidableEq κ] in
/-- What a reproducible program waits for at a choice has the same fingerprint in every execution. -/
lemma fingerprint_of_stands (hP : P.Reproducible) {p q : σ} {w : Walk} {l : Place σ} {c : Int}
    (hs : P.Stands p w l) (hp : P.next p = .choice c q) (i j : Nat) (f : Option FrameId)
    (b : Boundary) : P.fingerprint i q f b = P.fingerprint j q f b := by
  obtain ⟨q', hq', halike, -⟩ := hs.choice hp
  obtain ⟨q'', hq'', htwins⟩ := (hP.twins hs.reaches).exists_next hq'
  obtain rfl : q' = q'' := by simpa [Move.withConfig] using hq'.symm.trans hq''
  rw [halike.fingerprint, halike.fingerprint]
  exact htwins.fingerprint i j f b

/-- Re-execution is invisible. Between the last retreat and the restoration of a choice nothing is
said. Then the program stands where the choice was discovered, where it had the fingerprint of that
state, and has repeated all choices recorded before it. The instructions announced on a path are
those of one uninterrupted execution that follows the choices of the path.

If the states of every execution have the fingerprints that they have in every other one, the search
and the search with snapshots come to the same end, if any of them does, after the same deliveries,
and neither says anything that the other does not say. The fingerprint is then the present one,
too. -/
theorem reexecution_invisible (hP : P.Deterministic)
    (hx : x = fresh name depthLimit maxStates outside l₀) :
    (P.Reproducible →
      (∀ s e, (∃ fuel, Descent.explore P A.recorded fuel x.search = .ended s e) ↔
        ∃ fuel y, run P A.recorded fuel x = (y, some e) ∧ y.search = s) ∧
      (∀ n, ∃ fuel, (after P A.recorded n x).search.listeners.2 <:+
        (Descent.explore P A.recorded fuel x.search).search.listeners.2) ∧
      ∀ fuel, ∃ n, (Descent.explore P A.recorded fuel x.search).search =
        (after P A.recorded n x).search) ∧
    (∀ n d earlier, d :: earlier <:+ (after P A.recorded n x).search.listeners.2 →
        d.notice = .restored → Log.EndsInRetreat earlier) ∧
    ∀ n, (after P A.recorded n x).Undisturbed → ∀ d earlier,
        d :: earlier <:+ (after P A.recorded (n + 1) x).search.listeners.2 →
        (after P A.recorded n x).search.listeners.2 <:+ earlier →
        (d.notice = .restored → ∃ p q w c e below l,
          (after P A.recorded n x).stage = .executing p w ∧ P.next p = .choice c q ∧
          (after P A.recorded n x).search.path = e :: below ∧ w.replay = [e.choice] ∧
          P.Stands p w l ∧ (after P A.recorded n x).search.replay = l.choices ++ [e.choice] ∧
          ∃ i k, P.fingerprint i q w.frame (.choice c.toNat) = .ok k ∧
            (after P A.recorded n x).search.seen[e.state]? = some k ∧
            (P.Reproducible → P.fingerprint w.execution q w.frame (.choice c.toNat) = .ok k)) ∧
        (d.notice = .advanced → ∃ l b k, P.Reaches l ∧ P.At (fun _ _ => True) l b (.ok k) ∧
          d.view.stateId = (after P A.recorded n x).search.identify k ∧
          l.choices = (after P A.recorded n x).search.replay ∧
          Log.executed earlier = P.heardAt l b) := by
  refine ⟨fun hrep => same_as_explored hrep hx, fun n => restored_said hx n,
    fun n h d earlier hd hnew => ⟨fun hr => ?_, heard_said hP hx h hd hnew⟩⟩
  obtain ⟨p, q, w, c, e, below, l, hstage, hp, hpath, hreplay, hs, hl, i, k, hk, hseen⟩ :=
    restored_place hP hx h hd hnew hr
  exact ⟨p, q, w, c, e, below, l, hstage, hp, hpath, hreplay, hs, hl, i, k, hk, hseen,
    fun hrep => fingerprint_of_stands hrep hs hp w.execution i _ _ ▸ hk⟩

/-- The search with snapshots through the throws of two coins comes to the end to which the search
comes. -/
theorem reexecution_invisible_coins :
    ∃ fuel, Descent.explore coins Audience.mute.recorded fuel
      (fresh "coins" none none ⟨.empty, .empty, #[]⟩ () :
        Exploration (Nat × Nat) (Unit × Log) (Nat × Nat)).search =
      .ended (run coins Audience.mute.recorded 18
        (fresh "coins" none none ⟨.empty, .empty, #[]⟩ ())).1.search .completed := by
  have hrun : (run coins Audience.mute.recorded 18
      (fresh "coins" none none ⟨.empty, .empty, #[]⟩ ())).2 = some .completed := by
    decide +kernel
  exact (((reexecution_invisible coins_deterministic rfl).1 coins_reproducible).1 _ _).mpr
    ⟨18, _, Prod.ext rfl hrun, rfl⟩

end Runs

/-! ## What is told apart by the execution that has made it -/

/-- The program that defines a class with an object in the place of the name of its module, and then
asks for a truth value: `class C:` and `__module__ = object()`, and `__verify__.get_boolean()`. -/
def renews : CodeProgram where
  name := "renews"
  codes :=
    #[{ Source.moduleOf [] with
        steps := ⟨CodeProgram.importSteps "statelabel.verify" "Verify" "__verify__" ++
          [⟨14, "PUSH_NULL", .absent, .pushNull⟩,
           ⟨16, "LOAD_BUILD_CLASS", .absent, .loadClassBuilder⟩,
           ⟨18, "LOAD_CONST", .absent, .loadCode 1⟩,
           ⟨20, "MAKE_FUNCTION", .number 0, .makeFunction 0⟩,
           ⟨22, "LOAD_CONST", .constant (.str "C"), .loadConstant (.str "C")⟩,
           ⟨24, "PRECALL", .number 2, .idle⟩,
           ⟨28, "CALL", .number 2, .call 2⟩,
           ⟨38, "STORE_NAME", .text "C", .storeName "C"⟩] ++
          CodeProgram.askSteps "__verify__" 40 ++ [⟨68, "POP_TOP", .absent, .popTop⟩] ++
          CodeProgram.leaveSteps 70⟩ },
      { Source.moduleOf [] with
        qualname := "C"
        firstLine := 2
        steps := ⟨[⟨0, "RESUME", .number 0, .resume⟩,
           ⟨2, "LOAD_NAME", .text "__name__", .loadName "__name__"⟩,
           ⟨4, "STORE_NAME", .text "__module__", .storeName "__module__"⟩,
           ⟨6, "LOAD_CONST", .constant (.str "C"), .loadConstant (.str "C")⟩,
           ⟨8, "STORE_NAME", .text "__qualname__", .storeName "__qualname__"⟩,
           ⟨10, "PUSH_NULL", .absent, .pushNull⟩,
           ⟨12, "LOAD_NAME", .text "object", .loadName "object"⟩,
           ⟨14, "PRECALL", .number 0, .idle⟩,
           ⟨18, "CALL", .number 0, .call 0⟩,
           ⟨28, "STORE_NAME", .text "__module__", .storeName "__module__"⟩] ++
          CodeProgram.leaveSteps 30⟩ }]

/-- The search of `renews`, of which nothing is heard. -/
def renewsSearch : Exploration Process (Unit × Log) (List Frozen.Mark) :=
  fresh "renews" none none ⟨.empty, .empty, #[]⟩ ()

/-- Such an object is equal to nothing but itself, like what is not a number. The program makes
another one when it is executed again, so that the search finds its last state twice. A search with
snapshots, which comes to its end as well, finds it once. -/
theorem renewed_found_twice :
    renews.program.Deterministic ∧
    (run renews.program Audience.mute.recorded 162 renewsSearch).2 = some .completed ∧
    (run renews.program Audience.mute.recorded 162 renewsSearch).1.search.seen.size = 3 ∧
    (Descent.explore renews.program Audience.mute.recorded 79 renewsSearch.search).exit? =
      some .completed ∧
    (Descent.explore renews.program Audience.mute.recorded 79
      renewsSearch.search).search.seen.size = 2 := by
  refine ⟨fun _ _ => .refl _, ?_, ?_, ?_, ?_⟩
  · decide +kernel
  · decide +kernel
  · decide +kernel
  · decide +kernel

end Exploration

end StateAtlas
