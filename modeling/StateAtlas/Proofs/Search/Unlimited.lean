import StateAtlas.Proofs.Search.Act

set_option autoImplicit false

/-!
# Searches with and without a limit on states

A search looks at its limit on the number of states in one place only: after the announcement of a
new state that is no end state. Every other move is the same without the limit. Once the limit has
been hit the search is over, whatever its listeners do.

## Main definitions

* `StateAtlas.Search.Settled` — no boundary will be reached any more.
* `StateAtlas.Search.unlimited` — the search without its limit on states.
* `StateAtlas.Exploration.Spent` — the limit has been hit, and the search is settled.

## Main results

* `StateAtlas.Exploration.step_unlimited` — a move is made as without the limit, or the limit is hit.
* `StateAtlas.Exploration.spent_step` — once the limit has been hit, this remains so.
-/

namespace StateAtlas

variable {σ L κ : Type}

namespace Search

/-- No boundary will be reached any more: the search has been ended and goes on along no path, or a
listener has failed. -/
def Settled (s : Search L κ) : Phase → Prop
  | .broken => True
  | .over completed => completed = true → s.terminated = true
  | .resting => s.terminated = true
  | _ => False

/-- The search without its limit on states. -/
def unlimited (s : Search L κ) : Search L κ := { s with maxStates := none }

section Fields

variable (s : Search L κ)

@[simp] lemma unlimited_outside : s.unlimited.outside = s.outside := rfl

@[simp] lemma unlimited_terminated : s.unlimited.terminated = s.terminated := rfl

@[simp] lemma unlimited_breakReason : s.unlimited.breakReason = s.breakReason := rfl

@[simp] lemma unlimited_isNew : s.unlimited.isNew = s.isNew := rfl

@[simp] lemma unlimited_isEnd : s.unlimited.isEnd = s.isEnd := rfl

/-- Listeners are told the same, with or without the limit. -/
lemma notify_unlimited (A : Audience L) (scene : Scene) (top : Option FrameId) (n : Notice) :
    s.unlimited.notify A scene top n =
      ((s.notify A scene top n).1.unlimited, (s.notify A scene top n).2) := rfl

end Fields

variable [DecidableEq κ] {A : Audience L}

/-- A settled search stays settled; what it has discovered and the limit that it has hit last stay
as they are. -/
lemma Settled.act {x y : Search L κ × Phase} (h : x.1.Settled x.2) (ha : Act A x y) :
    y.1.Settled y.2 ∧ y.1.seen = x.1.seen ∧ y.1.constraint = x.1.constraint := by
  cases ha with
  | report => exact ⟨h, rfl, rfl⟩
  | @note s φ reason flag paths outside =>
    refine ⟨?_, rfl, rfl⟩
    cases φ <;> simp_all [Settled]
  | leave => exact ⟨by simp [Settled], rfl, rfl⟩
  | @quit s φ hb ho =>
    refine ⟨?_, rfl, rfl⟩
    cases φ <;> simp_all [Settled]
  | @finish s t f hn =>
    obtain rfl := eq_told _ hn
    have ht : s.terminated = true := h
    refine ⟨fun _ => ?_, rfl, rfl⟩
    simp [told, notify, ht]
  | retreat _ ht => simp [Settled, ht] at h
  | turn _ _ ht => simp [Settled, ht] at h
  | begin | start | effect | conclude | execute | reach | unmade | restore => exact h.elim

section Advance

variable {s t : Search L κ} {scene : Scene} {top : Option FrameId} {b : Boundary} {key : κ}
  {r : Progress}

/-- A boundary is reached as without the limit, or the limit is hit and the search is settled. -/
lemma advance_unlimited (h : s.advance A scene top b key = (t, r)) :
    s.unlimited.advance A scene top b key = (t.unlimited, r) ∨
      t.constraint = some "states" ∧ ∀ previous, t.Settled (.after previous r) := by
  have henter : s.unlimited.enter b key = (s.enter b key).unlimited := by
    simp only [unlimited, enter_eq]
    rfl
  unfold advance at h ⊢
  rw [henter, notify_unlimited]
  cases hn : (s.enter b key).notify A scene top .advanced with
  | mk u f =>
    rw [hn] at h
    cases f with
    | some f =>
      obtain ⟨rfl, rfl⟩ := Prod.mk.inj h
      exact .inl rfl
    | none =>
      simp only at h ⊢
      by_cases hgo : (u.terminated || !u.isNew || u.isEnd) = true
      · rw [if_pos hgo] at h
        obtain ⟨rfl, rfl⟩ := Prod.mk.inj h
        exact .inl (if_pos hgo)
      · rw [if_neg hgo] at h
        rw [unlimited_terminated, unlimited_isNew, unlimited_isEnd, if_neg hgo]
        by_cases hm : reached u.maxStates u.seen.size = true
        · -- the limit is hit
          rw [if_pos hm] at h
          refine .inr ?_
          split at h
          · rename_i v f hv
            obtain rfl := eq_told A hv
            obtain ⟨rfl, rfl⟩ := Prod.mk.inj h
            exact ⟨rfl, fun _ => trivial⟩
          · rename_i v hv
            obtain rfl := eq_told A hv
            obtain ⟨rfl, rfl⟩ := Prod.mk.inj h
            exact ⟨rfl, fun _ => rfl⟩
        · rw [if_neg hm] at h
          have hnone : ¬reached u.unlimited.maxStates u.unlimited.seen.size = true := by
            simp [unlimited, reached]
          rw [if_neg hnone]
          refine .inl ?_
          by_cases hd : reached u.depthLimit u.depth = true
          · rw [if_pos hd] at h
            rw [if_pos (show reached u.unlimited.depthLimit u.unlimited.depth = true from hd)]
            have hhit : u.unlimited.hitConstraint A scene top "depth" =
                ((u.hitConstraint A scene top "depth").1.unlimited,
                  (u.hitConstraint A scene top "depth").2) := rfl
            rw [hhit]
            cases hc : u.hitConstraint A scene top "depth" with
            | mk v f =>
              rw [hc] at h
              cases f <;> · obtain ⟨rfl, rfl⟩ := Prod.mk.inj h; rfl
          · rw [if_neg hd] at h
            rw [if_neg (show ¬reached u.unlimited.depthLimit u.unlimited.depth = true from hd)]
            obtain ⟨rfl, rfl⟩ := Prod.mk.inj h
            rfl

/-- The limit is not looked at in an end state. -/
lemma advance_finished_unlimited (s : Search L κ) (scene : Scene) (top : Option FrameId) (key : κ) :
    s.unlimited.advance A scene top .finished key =
      ((s.advance A scene top .finished key).1.unlimited,
        (s.advance A scene top .finished key).2) := by
  have henter : s.unlimited.enter .finished key = (s.enter .finished key).unlimited := by
    simp only [unlimited, enter_eq]
    rfl
  have hend : (s.entered A scene top .finished key).isEnd = true := by simp [entered, enter_eq]
  unfold advance
  rw [henter, notify_unlimited]
  cases hn : (s.enter .finished key).notify A scene top .advanced with
  | mk u f =>
    obtain rfl : u = s.entered A scene top .finished key := eq_told A hn
    cases f with
    | some f => rfl
    | none => simp [hend, unlimited]

/-- A boundary is reached as without the limit, or the limit is hit and the search is settled,
whether the boundary has a fingerprint or not. -/
lemma reach_unlimited {fingerprint : Except Fault κ}
    (h : s.reach A scene top b fingerprint = (t, r)) :
    s.unlimited.reach A scene top b fingerprint = (t.unlimited, r) ∨
      t.constraint = some "states" ∧ ∀ previous, t.Settled (.after previous r) := by
  rcases reach_cases A h with ⟨f, rfl, rfl, rfl⟩ | ⟨key, rfl, hadv⟩
  · exact .inl rfl
  · exact advance_unlimited hadv

/-- The limit is not looked at in an end state, whether it has a fingerprint or not. -/
lemma reach_finished_unlimited (s : Search L κ) (scene : Scene) (top : Option FrameId)
    (fingerprint : Except Fault κ) :
    s.unlimited.reach A scene top .finished fingerprint =
      ((s.reach A scene top .finished fingerprint).1.unlimited,
        (s.reach A scene top .finished fingerprint).2) := by
  cases fingerprint with
  | error f => rfl
  | ok key => exact advance_finished_unlimited s scene top key

end Advance

omit [DecidableEq κ] in
/-- Going back does not look at the limit. -/
lemma backtrackFrom_unlimited (path : List PathEntry) : ∀ s : Search L κ,
    s.unlimited.backtrackFrom A path =
      ((s.backtrackFrom A path).1.unlimited, (s.backtrackFrom A path).2) := by
  induction path with
  | nil => intro s; rfl
  | cons e rest ih =>
    intro s
    have hnotify : (s.unlimited.back rest).notify A s.outside none .backtracked = _ :=
      notify_unlimited (s.back rest) A s.outside none .backtracked
    rw [backtrackFrom, backtrackFrom]
    rw [back, back] at hnotify
    simp only [unlimited_outside] at hnotify ⊢
    rw [hnotify]
    cases hn : (s.back rest).notify A s.outside none .backtracked with
    | mk u f =>
      rw [back] at hn
      rw [hn]
      cases f with
      | some f => rfl
      | none =>
        simp only
        rw [unlimited_terminated]
        split
        · rfl
        · cases rest with
          | nil => rfl
          | cons e' below =>
            simp only
            split
            · rfl
            · exact ih u

end Search

namespace Exploration

variable {P : Program σ κ} {A : Audience L}

/-- The search, wherever it stands, without its limit on states. -/
def unlimited (x : Exploration σ L κ) : Exploration σ L κ :=
  { x with search := x.search.unlimited }

/-- The limit on states has been hit, and the search is settled. -/
def Spent (s : Search L κ) (stage : Stage σ) : Prop :=
  s.constraint = some "states" ∧ s.Settled (phase s stage)

/-- The last notice does not depend on the limit. -/
lemma finish_unlimited (s : Search L κ) : (finish A s.unlimited : _ × Stage σ) =
    ((finish A s : _ × Stage σ).1.unlimited, (finish A s : _ × Stage σ).2) := by
  unfold finish
  rw [Search.unlimited_outside, Search.notify_unlimited]
  cases s.notify A s.outside none .finished with
  | mk u f => cases f <;> rfl

/-- Going back does not depend on the limit. -/
lemma goBack_unlimited (s : Search L κ) : (goBack A s.unlimited : _ × Stage σ) =
    ((goBack A s : _ × Stage σ).1.unlimited, (goBack A s : _ × Stage σ).2) := by
  have hback : s.unlimited.backtrack A = ((s.backtrack A).1.unlimited, (s.backtrack A).2) :=
    Search.backtrackFrom_unlimited s.path s
  rw [goBack, goBack, hback]
  cases s.backtrack A with
  | mk t r =>
    cases r with
    | done => exact finish_unlimited t
    | _ => rfl

/-- What follows a path does not depend on the limit. -/
lemma afterPath_unlimited (s : Search L κ) : (afterPath A s.unlimited : _ × Stage σ) =
    ((afterPath A s : _ × Stage σ).1.unlimited, (afterPath A s : _ × Stage σ).2) := by
  unfold afterPath
  by_cases ht : s.terminated = true
  · rw [if_pos ht, if_pos (show s.unlimited.terminated = true from ht)]
    exact finish_unlimited { s with paths := s.paths + 1 }
  · rw [if_neg ht, if_neg (show ¬s.unlimited.terminated = true from ht)]
    exact goBack_unlimited { s with paths := s.paths + 1 }

variable [DecidableEq κ]

/-- The last instruction is concluded as without the limit, or the limit is hit. -/
lemma concludeStep_unlimited {s t : Search L κ} {p : σ} {w : Walk} {i : Instruction} {r : Progress}
    (h : concludeStep P A s p w i = (t, r)) :
    concludeStep P A s.unlimited p w i = (t.unlimited, r) ∨
      t.constraint = some "states" ∧ ∀ previous, t.Settled (.after previous r) := by
  unfold concludeStep at h ⊢
  cases hp : w.previous with
  | none =>
    rw [hp] at h
    obtain ⟨rfl, rfl⟩ := Prod.mk.inj h
    exact .inl rfl
  | some e =>
    rw [hp] at h
    simp only at h ⊢
    have hnotify : s.unlimited.unasked.notify A (P.scene p) w.frame (.executed e (some i)) = _ :=
      s.unasked.notify_unlimited A (P.scene p) w.frame (.executed e (some i))
    rw [Search.unasked, Search.unasked] at hnotify
    rw [hnotify]
    cases hn : s.unasked.notify A (P.scene p) w.frame (.executed e (some i)) with
    | mk u f =>
      rw [Search.unasked] at hn
      rw [hn] at h ⊢
      cases f with
      | some f =>
        obtain ⟨rfl, rfl⟩ := Prod.mk.inj h
        exact .inl rfl
      | none =>
        simp only at h ⊢
        rw [Search.unlimited_breakReason]
        split at h
        · rename_i hask
          rw [if_pos hask]
          exact Search.reach_unlimited h
        · rename_i hask
          rw [if_neg hask]
          obtain ⟨rfl, rfl⟩ := Prod.mk.inj h
          exact .inl rfl

omit [DecidableEq κ] in
/-- A path that ends at a spent search is spent. -/
lemma spent_stopPath {t : Search L κ} {p : σ} {w : Walk} {r : Progress} (hc : t.constraint = some "states")
    (hs : ∀ previous, t.Settled (.after previous r)) :
    (∀ f, r = .failed f → Spent (stopPath P t p w (some f)).1 (stopPath P t p w (some f)).2) ∧
      (r = .halt → Spent (stopPath P t p w none).1 (stopPath P t p w none).2) ∧ r ≠ .onward := by
  refine ⟨fun f _ => ⟨hc, by simp [stopPath, phase, Search.Settled]⟩, ?_, ?_⟩
  · rintro rfl
    have ht : t.terminated = true := hs none
    exact ⟨hc, by simpa [stopPath, phase, Search.Settled] using ht⟩
  · rintro rfl
    exact hs none

/-- An instruction is taken as without the limit, or the limit is hit. -/
lemma onInstruction_unlimited (s : Search L κ) (p : σ) (w : Walk) (i : Instruction) :
    onInstruction P A s.unlimited p w i =
        ((onInstruction P A s p w i).1.unlimited, (onInstruction P A s p w i).2) ∨
      Spent (onInstruction P A s p w i).1 (onInstruction P A s p w i).2 := by
  unfold onInstruction
  split
  · exact .inl rfl
  · simp only
    split
    · exact .inl rfl
    · cases hc : concludeStep P A s p ⟨w.execution, some i.frame, w.previous, w.stopping, w.failure,
          w.replay, w.replayLength⟩ i with
      | mk t r =>
        rcases concludeStep_unlimited hc with hsame | ⟨hcon, hset⟩
        · refine .inl ?_
          rw [hsame]
          cases r with
          | failed f => rfl
          | halt => rfl
          | onward =>
            simp only
            rw [Search.notify_unlimited]
            cases t.notify A (P.scene p) (some i.frame) (.executing i) with
            | mk u f =>
              cases f with
              | some f => rfl
              | none =>
                simp only
                rw [Search.unlimited_terminated]
                split <;> rfl
        · obtain ⟨hfail, hhalt, hon⟩ := spent_stopPath (P := P) (p := p) (w := ⟨w.execution,
            some i.frame, w.previous, w.stopping, w.failure, w.replay, w.replayLength⟩) hcon hset
          cases r with
          | failed f => exact .inr (hfail f rfl)
          | halt => exact .inr (hhalt rfl)
          | onward => exact absurd rfl hon

/-- A choice is taken as without the limit, or the limit is hit. -/
lemma onChoice_unlimited (s : Search L κ) (p : σ) (w : Walk) (n : Int) :
    onChoice P A s.unlimited p w n =
        ((onChoice P A s p w n).1.unlimited, (onChoice P A s p w n).2) ∨
      Spent (onChoice P A s p w n).1 (onChoice P A s p w n).2 := by
  unfold onChoice
  split
  · exact .inl rfl
  · split
    · exact .inl rfl
    · cases w.replay with
      | cons c rest =>
        refine .inl ?_
        simp only
        split
        · rw [Search.notify_unlimited]
          cases s.notify A (P.scene p) w.frame .restored with
          | mk u f =>
            cases f with
            | some f => rfl
            | none =>
              simp only
              rw [Search.unlimited_terminated]
              split <;> rfl
        · rfl
      | nil =>
        simp only
        cases hreach : s.reach A (P.scene p) w.frame (.choice n.toNat)
            (P.fingerprint w.execution p w.frame (.choice n.toNat)) with
        | mk t r =>
          rcases Search.reach_unlimited hreach with hsame | ⟨hcon, hset⟩
          · refine .inl ?_
            rw [hsame]
            cases r <;> rfl
          · obtain ⟨hfail, hhalt, hon⟩ := spent_stopPath (P := P) (p := p) (w := w) hcon hset
            cases r with
            | failed f => exact .inr (hfail f rfl)
            | halt => exact .inr (hhalt rfl)
            | onward => exact absurd rfl hon

/-- Whether an end state is reached does not depend on the limit. -/
lemma reachEnd_unlimited (s : Search L κ) (p : σ) (n : Nat) :
    reachEnd P A s.unlimited p n = ((reachEnd P A s p n).1.unlimited, (reachEnd P A s p n).2) := by
  have hreach : s.unlimited.unasked.reach A (P.scene p) none .finished
        (P.fingerprint n p none .finished) = _ :=
    Search.reach_finished_unlimited s.unasked (P.scene p) none (P.fingerprint n p none .finished)
  rw [reachEnd, reachEnd, hreach]
  by_cases ht : s.unasked.terminated = true
  · rw [if_pos ht, if_pos (show s.unlimited.unasked.terminated = true from ht)]
    rfl
  · rw [if_neg ht, if_neg (show ¬s.unlimited.unasked.terminated = true from ht)]
    cases s.unasked.reach A (P.scene p) none .finished (P.fingerprint n p none .finished) with
    | mk v r => cases r <;> rfl

/-- The end of a path does not depend on the limit. -/
lemma finishPath_unlimited (s : Search L κ) (p : σ) (w : Walk) :
    finishPath P A s.unlimited p w =
      ((finishPath P A s p w).1.unlimited, (finishPath P A s p w).2) := by
  unfold finishPath
  cases w.previous with
  | none => exact reachEnd_unlimited s p w.execution
  | some e =>
    have hnotify : s.unlimited.unasked.notify A (P.scene p) none (.executed e none) = _ :=
      s.unasked.notify_unlimited A (P.scene p) none (.executed e none)
    rw [Search.unasked, Search.unasked] at hnotify
    simp only [hnotify]
    cases hn : s.unasked.notify A (P.scene p) none (.executed e none) with
    | mk u f =>
      rw [Search.unasked] at hn
      rw [hn]
      cases f with
      | some f => rfl
      | none => exact reachEnd_unlimited u p w.execution

/-- Once an exception has been reported, the end of an execution does not depend on the limit. -/
lemma endPath_unlimited (s : Search L κ) (p : σ) (w : Walk) (ending : Ending) :
    endPath P A s.unlimited p w ending =
      ((endPath P A s p w ending).1.unlimited, (endPath P A s p w ending).2) := by
  unfold endPath
  cases w.failure with
  | some f => rfl
  | none =>
    simp only
    split
    · exact afterPath_unlimited s
    · split
      · exact afterPath_unlimited (s.report A (shortReport s.name w.replayLength))
      · rw [finishPath_unlimited]
        cases finishPath P A s p w with
        | mk v f =>
          cases f with
          | some f => rfl
          | none => exact afterPath_unlimited v

/-- The end of an execution does not depend on the limit. -/
lemma onEnd_unlimited (s : Search L κ) (p : σ) (w : Walk) (ending : Ending) :
    onEnd P A s.unlimited p w ending =
      ((onEnd P A s p w ending).1.unlimited, (onEnd P A s p w ending).2) := by
  cases ending with
  | interrupted => rfl
  | raised type message =>
    exact endPath_unlimited (s.report A (raisedReport s.name type message)) p w _
  | normal => exact endPath_unlimited s p w _
  | exit => exact endPath_unlimited s p w _
  | stopped => exact endPath_unlimited s p w _

/-- Every move is made as without the limit, or the limit is hit. -/
lemma step_unlimited (x : Exploration σ L κ) :
    step P A x.unlimited = (step P A x).unlimited ∨
      Spent (step P A x).search (step P A x).stage := by
  obtain ⟨s, stage, printed⟩ := x
  have pack : ∀ {r t : Search L κ × Stage σ}, t = (r.1.unlimited, r.2) →
      (⟨t.1, t.2, printed⟩ : Exploration σ L κ) = unlimited ⟨r.1, r.2, printed⟩ := by
    rintro r _ rfl
    rfl
  cases stage with
  | waiting =>
    refine .inl (pack (r := begin A s) (t := begin A s.unlimited) ?_)
    unfold begin
    rw [Search.unlimited_outside, Search.notify_unlimited]
    cases s.notify A s.outside none .started with
    | mk u f => cases f <;> rfl
  | launching =>
    refine .inl (pack (r := launch P A s) (t := launch P A s.unlimited) ?_)
    unfold launch
    rw [Search.unlimited_terminated]
    split
    · exact finish_unlimited s
    · rfl
  | ended e => exact .inl rfl
  | executing p w =>
    simp only [step, unlimited]
    cases P.next p with
    | internal q => exact .inl rfl
    | print text q => exact .inl rfl
    | terminate q => exact .inl rfl
    | effect e q =>
      refine .inl ?_
      simp only
      split <;> rfl
    | instruction i q => exact (onInstruction_unlimited s q w i).imp_left pack
    | choice n q => exact (onChoice_unlimited s q w n).imp_left pack
    | ended ending q => exact .inl (pack (onEnd_unlimited s q w ending))

/-- A search that has hit the limit has still hit it after any move. -/
lemma spent_step {x : Exploration σ L κ} (ho : x.stage.Orderly) (h : Spent x.search x.stage) :
    Spent (step P A x).search (step P A x).stage := by
  have keep : ∀ {y z : Search L κ × Phase}, Search.Acts A y z →
      y.1.constraint = some "states" ∧ y.1.Settled y.2 →
        z.1.constraint = some "states" ∧ z.1.Settled z.2 := fun hacts hy => by
    induction hacts with
    | refl => exact hy
    | tail _ ha ih =>
      obtain ⟨hset, -, hcon⟩ := ih.2.act ha
      exact ⟨hcon.trans ih.1, hset⟩
  exact keep (acts_step (P := P) ho) h

omit [DecidableEq κ] in
/-- A settled search has been ended, or a failure or an interruption has ended it. -/
lemma Spent.ended {s : Search L κ} {stage : Stage σ} (h : Spent s stage) :
    s.terminated = true ∨ ¬stage.Sound := by
  obtain ⟨-, h⟩ := h
  cases stage with
  | waiting => exact h.elim
  | launching =>
    simp only [phase, Search.opening] at h
    split at h <;> exact h.elim
  | executing p w =>
    by_cases hf : w.failure = none
    · rw [phase_executing s p hf] at h
      split_ifs at h
      · exact .inl h
      all_goals exact h.elim
    · exact .inr hf
  | ended e =>
    by_cases he : e = .completed
    · exact .inl (h (by simp [he]))
    · exact .inr he

end Exploration

end StateAtlas
