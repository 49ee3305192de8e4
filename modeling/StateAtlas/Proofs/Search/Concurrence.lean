import StateAtlas.Proofs.Search.Stopping

set_option autoImplicit false

/-!
# Listeners that concur

Two audiences concur as long as they ask for the same, and fail together; their listeners need not be
of one kind. The search with the one then makes the same moves as the search with the other: it tells
its listeners the same, discovers the same states and leaves the same path. Only what a failure says
may differ, as far as is granted, and after it nothing is delivered any more.

## Main definitions

* `StateAtlas.Audience.Concurs` — related listeners ask for the same, and fail together.
* `StateAtlas.Search.serving` — a search with other listeners.
* `StateAtlas.Search.Matches` — two results of an operation that differ in the listeners, and in
  what a failure says.
* `StateAtlas.Exploration.Abreast` — two searches that differ in no more than that.

## Main results

* `StateAtlas.Exploration.abreast_step` — a move keeps two searches abreast.
* `StateAtlas.Exploration.abreast_after` — so does a run.

## Design

There are two relations between listeners. The first one carries the agreement from one notice to
the next and ends with a failure; the second one is what is left of it then. A third relation says
how much two failures may differ.
-/

namespace StateAtlas

variable {σ L M κ α : Type}

/-- Two reactions ask for the same, and both of them are failures or none is. -/
structure Reaction.Concurs (r r' : Reaction) : Prop where
  terminate : r'.terminate = r.terminate
  breakReason : r'.breakReason = r.breakReason
  failure : r'.failure = .none ↔ r.failure = .none

lemma Reaction.Concurs.refl (r : Reaction) : r.Concurs r := ⟨rfl, rfl, Iff.rfl⟩

/-- Reactions that concur do so one after the other. -/
lemma Reaction.Concurs.andThen {a b a' b' : Reaction} (h : a.Concurs a') (h' : b.Concurs b') :
    (a.andThen b).Concurs (a'.andThen b') where
  terminate := by simp [Reaction.andThen, h.terminate, h'.terminate]
  breakReason := by simp [Reaction.andThen, h.breakReason, h'.breakReason]
  failure := by simp [Reaction.andThen, h.failure, h'.failure]

/-- Listeners in the first relation react to every notice in the same way, and stay in it until they
fail, which they do together. From then on they are in the second one, and their failures are in the
third one. -/
structure Audience.Concurs (A : Audience L) (B : Audience M) (R K : L → M → Prop)
    (F : Fault → Fault → Prop) : Prop where
  same : ∀ f, F f f
  kept : ∀ {l l'}, R l l' → K l l'
  report : ∀ {l l'} r, R l l' → R (A.report l r) (B.report l' r)
  report_kept : ∀ {l l'} r, K l l' → K (A.report l r) (B.report l' r)
  hear : ∀ {l l'} view n, R l l' →
    (A.hear l view n).2.Concurs (B.hear l' view n).2 ∧
      K (A.hear l view n).1 (B.hear l' view n).1 ∧
      ((A.hear l view n).2.failure = none → R (A.hear l view n).1 (B.hear l' view n).1)
  failures : ∀ {l l'} view n, R l l' → ∀ f f', (A.hear l view n).2.failure = some f →
    (B.hear l' view n).2.failure = some f' → F f f'

/-- Two branchings on the same flag are related if their branches are. -/
lemma ite_related {α β : Type} {r : α → β → Prop} {b b' : Bool} (hb : b' = b) {x x' : α} {y y' : β}
    (h : r x y) (h' : r x' y') :
    r (if b = true then x else x') (if b' = true then y else y') := by
  subst hb
  cases b'
  · exact h'
  · exact h

/-! ## Operations -/

namespace Search

/-- The search with other listeners. -/
def serving (s : Search L κ) (m : M) : Search M κ where
  name := s.name
  depthLimit := s.depthLimit
  maxStates := s.maxStates
  outside := s.outside
  listeners := m
  stateId := s.stateId
  isNew := s.isNew
  isEnd := s.isEnd
  path := s.path
  seen := s.seen
  constraint := s.constraint
  terminated := s.terminated
  paths := s.paths
  breakReason := s.breakReason

@[simp] lemma serving_listeners (s : Search L κ) (m : M) : (s.serving m).listeners = m := rfl
@[simp] lemma serving_outside (s : Search L κ) (m : M) : (s.serving m).outside = s.outside := rfl
@[simp] lemma serving_path (s : Search L κ) (m : M) : (s.serving m).path = s.path := rfl

lemma back_serving (s : Search L κ) (m : M) (rest : List PathEntry) :
    (s.serving m).back rest = (s.back rest).serving m := rfl

/-- Two results of an operation, of which some outcomes are failures. Either nothing has failed and
the outcome is the same, or both have failed; what the search itself has become is the same in any
case. -/
inductive Matches (R K : L → M → Prop) (F : Fault → Fault → Prop) (failure : Fault → α) :
    Search L κ × α → Search M κ × α → Prop
  | alike {s : Search L κ} {l : M} {a : α} (hR : R s.listeners l) (ha : ∀ f, a ≠ failure f) :
      Matches R K F failure (s, a) (s.serving l, a)
  | failed {s : Search L κ} {l : M} {f f' : Fault} (hK : K s.listeners l) (hF : F f f') :
      Matches R K F failure (s, failure f) (s.serving l, failure f')

lemma enter_serving [DecidableEq κ] (s : Search L κ) (l : M) (b : Boundary) (key : κ) :
    (s.serving l).enter b key = (s.enter b key).serving l := by
  rw [enter_eq, enter_eq]
  rfl

variable {A : Audience L} {B : Audience M} {R K : L → M → Prop}
  {F : Fault → Fault → Prop} {s : Search L κ} {l : M}

/-- Nothing has failed. -/
lemma Matches.silent (hR : R s.listeners l) : Matches R K F some (s, none) (s.serving l, none) :=
  .alike hR fun f => (Option.some_ne_none f).symm

/-- The path goes on. -/
lemma Matches.onward (hR : R s.listeners l) :
    Matches R K F Progress.failed (s, .onward) (s.serving l, .onward) := .alike hR (by simp)

/-- The path is over. -/
lemma Matches.halt (hR : R s.listeners l) :
    Matches R K F Progress.failed (s, .halt) (s.serving l, .halt) := .alike hR (by simp)

/-- A notice is delivered. -/
lemma matches_notify (hA : A.Concurs B R K F) (hR : R s.listeners l) (scene : Scene)
    (top : Option FrameId) (n : Notice) :
    Matches R K F some (s.notify A scene top n) ((s.serving l).notify B scene top n) := by
  obtain ⟨⟨hterm, hwish, hfail⟩, hK, hnext⟩ := hA.hear (s.view scene top) n hR
  have heq : (s.serving l).notify B scene top n =
      ((s.notify A scene top n).1.serving (B.hear l (s.view scene top) n).1,
        (B.hear l (s.view scene top) n).2.failure) := by
    have hview : (s.serving l).view scene top = s.view scene top := rfl
    have hlisteners : (s.serving l).listeners = l := rfl
    simp only [notify, hview, hlisteners, hterm, hwish]
    rfl
  have hself : s.notify A scene top n =
      ((s.notify A scene top n).1, (A.hear s.listeners (s.view scene top) n).2.failure) := rfl
  rw [heq]
  cases hf : (A.hear s.listeners (s.view scene top) n).2.failure with
  | none =>
    rw [hself, hf, hfail.mpr hf]
    exact .silent (hnext hf)
  | some f =>
    obtain ⟨f', hf'⟩ : ∃ f', (B.hear l (s.view scene top) n).2.failure = some f' :=
      Option.ne_none_iff_exists'.mp fun h => by simp [hfail.mp h] at hf
    rw [hself, hf, hf']
    exact .failed hK (hA.failures _ n hR f f' hf hf')

/-- What becomes of a path once a limit has been announced, or could not be. -/
def afterLimit (g : Search L κ → Search L κ) : Search L κ × Option Fault → Search L κ × Progress
  | (s, some f) => (s, .failed f)
  | (s, none) => (g s, .halt)

/-- A limit is announced. -/
lemma matches_afterLimit (hA : A.Concurs B R K F) (hR : R s.listeners l) (scene : Scene)
    (top : Option FrameId) (constraint : String) {g : Search L κ → Search L κ}
    {g' : Search M κ → Search M κ} (hg : ∀ s (l : M), g' (s.serving l) = (g s).serving l)
    (hlisteners : ∀ s, (g s).listeners = s.listeners) :
    Matches R K F Progress.failed (afterLimit g (s.hitConstraint A scene top constraint))
      (afterLimit g' ((s.serving l).hitConstraint B scene top constraint)) := by
  have h : Matches R K F some (s.hitConstraint A scene top constraint)
      ((s.serving l).hitConstraint B scene top constraint) :=
    matches_notify (s := { s with constraint := some constraint }) hA hR scene top .constraintHit
  generalize s.hitConstraint A scene top constraint = x at h ⊢
  generalize (s.serving l).hitConstraint B scene top constraint = y at h ⊢
  cases h with
  | failed hK hF => exact .failed hK hF
  | @alike t m f hR hf =>
    obtain rfl : f = none := Option.eq_none_iff_forall_ne_some.mpr hf
    simp only [afterLimit, hg]
    exact .halt (by rw [hlisteners]; exact hR)

/-- A boundary is reached. -/
lemma matches_advance [DecidableEq κ] (hA : A.Concurs B R K F) (hR : R s.listeners l) (scene : Scene)
    (top : Option FrameId) (b : Boundary) (key : κ) :
    Matches R K F Progress.failed (s.advance A scene top b key)
      ((s.serving l).advance B scene top b key) := by
  have henter : R (s.enter b key).listeners l := by
    rw [enter_eq]
    exact hR
  have h := matches_notify hA henter scene top .advanced
  unfold advance
  rw [enter_serving]
  generalize (s.enter b key).notify A scene top .advanced = x at h ⊢
  generalize ((s.enter b key).serving l).notify B scene top .advanced = y at h ⊢
  cases h with
  | failed hK hF => exact .failed hK hF
  | @alike t m f hR hf =>
    obtain rfl : f = none := Option.eq_none_iff_forall_ne_some.mpr hf
    refine ite_related rfl (.halt hR) (ite_related rfl ?_ (ite_related rfl ?_ (.onward hR)))
    · exact matches_afterLimit (g := fun u => { u with terminated := true }) hA hR scene top "states"
        (fun _ _ => rfl) fun _ => rfl
    · exact matches_afterLimit (g := id) hA hR scene top "depth" (fun _ _ => rfl) fun _ => rfl

/-- A boundary is reached, unless it has no fingerprint. -/
lemma matches_reach [DecidableEq κ] (hA : A.Concurs B R K F) (hR : R s.listeners l) (scene : Scene)
    (top : Option FrameId) (b : Boundary) (fingerprint : Except Fault κ) :
    Matches R K F Progress.failed (s.reach A scene top b fingerprint)
      ((s.serving l).reach B scene top b fingerprint) := by
  cases fingerprint with
  | error f => exact .failed (hA.kept hR) (hA.same f)
  | ok key => exact matches_advance hA hR scene top b key

/-- Boundaries are left one after another. -/
lemma matches_backtrackFrom (hA : A.Concurs B R K F) (path : List PathEntry) :
    ∀ {s : Search L κ} {l : M}, R s.listeners l →
      Matches R K F Retreat.failed (s.backtrackFrom A path) ((s.serving l).backtrackFrom B path) := by
  induction path with
  | nil => exact fun hR => .alike hR (by simp)
  | cons e rest ih =>
    intro s l hR
    have h := matches_notify (s := s.back rest) hA hR s.outside none .backtracked
    rw [backtrackFrom_cons, backtrackFrom_cons, back_serving, serving_outside]
    generalize (s.back rest).notify A s.outside none .backtracked = x at h ⊢
    generalize ((s.back rest).serving l).notify B s.outside none .backtracked = y at h ⊢
    cases h with
    | failed hK hF => exact .failed hK hF
    | @alike t m f hR hf =>
      obtain rfl : f = none := Option.eq_none_iff_forall_ne_some.mpr hf
      refine ite_related rfl (.alike hR (by simp)) ?_
      cases rest with
      | nil => exact .alike hR (by simp)
      | cons e' below => exact ite_related rfl (.alike hR (by simp)) (ih hR)

end Search

/-! ## Moves -/

namespace Exploration

open Search

/-- Two results of a move: nothing has failed and they stand at the same place, or both have failed
and are about to surface a failure, or have surfaced it, unless a signal to the whole run has taken
its place. -/
inductive Abreast (R K : L → M → Prop) (F : Fault → Fault → Prop) :
    Search L κ × Stage σ → Search M κ × Stage σ → Prop
  | alike {s : Search L κ} {l : M} {stage : Stage σ} (hR : R s.listeners l) (hs : stage.Sound) :
      Abreast R K F (s, stage) (s.serving l, stage)
  | stopping {s : Search L κ} {l : M} {f f' : Fault} (p : σ) (w : Walk) (hK : K s.listeners l)
      (hF : F f f') :
      Abreast R K F (s, .executing p { w with stopping := true, failure := some f })
        (s.serving l, .executing p { w with stopping := true, failure := some f' })
  | surfaced {s : Search L κ} {l : M} {f f' : Fault} (hK : K s.listeners l) (hF : F f f') :
      Abreast R K F (s, .ended (.failed f)) (s.serving l, .ended (.failed f'))
  | interrupted {s : Search L κ} {l : M} (hK : K s.listeners l) (type : ExceptionClass)
      (message : String) :
      Abreast R K F (s, .ended (.interrupted type message))
        (s.serving l, .ended (.interrupted type message))

variable {P : Program σ κ} {A : Audience L} {B : Audience M} {R K : L → M → Prop}
  {F : Fault → Fault → Prop} {s : Search L κ} {l : M}

/-- Searches that are abreast differ in their listeners, and in what a failure says. -/
lemma Abreast.exists_serving (hA : A.Concurs B R K F) {x : Search L κ × Stage σ}
    {y : Search M κ × Stage σ} (h : Abreast R K F x y) :
    ∃ l, y.1 = x.1.serving l ∧ K x.1.listeners l ∧ (y.2.Sound ↔ x.2.Sound) ∧
      (x.2.Sound → y.2 = x.2 ∧ R x.1.listeners l) := by
  cases h with
  | alike hR _ => exact ⟨_, rfl, hA.kept hR, Iff.rfl, fun _ => ⟨rfl, hR⟩⟩
  | stopping p w hK hF => exact ⟨_, rfl, hK, by simp [Stage.Sound], by simp [Stage.Sound]⟩
  | surfaced hK hF => exact ⟨_, rfl, hK, by simp [Stage.Sound], by simp [Stage.Sound]⟩
  | interrupted hK _ _ => exact ⟨_, rfl, hK, Iff.rfl, by simp [Stage.Sound]⟩

/-- Searches that are abreast end together, and in the same way, but for what a failure says. -/
lemma Abreast.ended {x : Search L κ × Stage σ} {y : Search M κ × Stage σ} (h : Abreast R K F x y)
    {e : Exit} (he : x.2 = .ended e) :
    y.2 = .ended e ∨ ∃ f f', F f f' ∧ e = .failed f ∧ y.2 = .ended (.failed f') := by
  cases h with
  | alike | interrupted => exact .inl he
  | stopping => cases he
  | surfaced _ hF => exact .inr ⟨_, _, hF, (Stage.ended.inj he).symm, rfl⟩

/-- The failure of a listener stops the path. -/
lemma abreast_stopPath (hK : K s.listeners l) (p : σ) (w : Walk) {f f' : Fault} (hF : F f f') :
    Abreast R K F (stopPath P s p w (some f)) (stopPath P (s.serving l) p w (some f')) :=
  .stopping _ w hK hF

/-- The last notice is delivered. -/
lemma abreast_finish (hA : A.Concurs B R K F) (hR : R s.listeners l) :
    Abreast R K F (finish A s : _ × Stage σ) (finish B (s.serving l)) := by
  have h := matches_notify hA hR s.outside none .finished
  unfold finish
  rw [serving_outside]
  generalize s.notify A s.outside none .finished = x at h ⊢
  generalize (s.serving l).notify B s.outside none .finished = y at h ⊢
  cases h with
  | failed hK hF => exact .surfaced hK hF
  | @alike t m f hR hf =>
    obtain rfl : f = none := Option.eq_none_iff_forall_ne_some.mpr hf
    exact .alike hR rfl

/-- The search goes back after a path, or comes to its end. -/
lemma abreast_afterPath (hA : A.Concurs B R K F) (hR : R s.listeners l) :
    Abreast R K F (afterPath A s : _ × Stage σ) (afterPath B (s.serving l)) := by
  have hcount : ({ s.serving l with paths := (s.serving l).paths + 1 } : Search M κ) =
      ({ s with paths := s.paths + 1 } : Search L κ).serving l := rfl
  have h := matches_backtrackFrom hA s.path (s := { s with paths := s.paths + 1 }) hR
  simp only [afterPath, hcount]
  refine ite_related rfl (abreast_finish hA hR) ?_
  simp only [backtrack, serving_path]
  generalize ({ s with paths := s.paths + 1 } : Search L κ).backtrackFrom A s.path = x at h ⊢
  generalize (({ s with paths := s.paths + 1 } : Search L κ).serving l).backtrackFrom B
    s.path = y at h ⊢
  cases h with
  | failed hK hF => exact .surfaced hK hF
  | @alike u m r hR hr =>
    cases r with
    | resume => exact .alike hR trivial
    | done => exact abreast_finish hA hR
    | failed f => exact absurd rfl (hr f)

variable [DecidableEq κ]

/-- The last instruction is concluded, and a boundary is reached if a listener wants one. -/
lemma matches_concludeStep (hA : A.Concurs B R K F) (hR : R s.listeners l) (p : σ) (w : Walk)
    (i : Instruction) :
    Matches R K F Progress.failed (concludeStep P A s p w i)
      (concludeStep P B (s.serving l) p w i) := by
  unfold concludeStep
  cases w.previous with
  | none => exact .onward hR
  | some e =>
    have h := matches_notify (s := s.unasked) hA hR (P.scene p) w.frame (.executed e (some i))
    have hunasked : ({ s.serving l with breakReason := none } : Search M κ) =
      s.unasked.serving l := rfl
    simp only [hunasked]
    rw [← unasked]
    generalize s.unasked.notify A (P.scene p) w.frame (.executed e (some i)) = x at h ⊢
    generalize (s.unasked.serving l).notify B (P.scene p) w.frame (.executed e (some i)) = y at h ⊢
    cases h with
    | failed hK hF => exact .failed hK hF
    | @alike t m f hR hf =>
      obtain rfl : f = none := Option.eq_none_iff_forall_ne_some.mpr hf
      exact ite_related rfl (matches_reach (s := t.unasked) hA hR _ _ _ _) (.onward hR)

/-- An instruction is about to run. -/
lemma abreast_onInstruction (hA : A.Concurs B R K F) (hR : R s.listeners l) (p : σ) {w : Walk}
    (hw : w.failure = none) (i : Instruction) :
    Abreast R K F (onInstruction P A s p w i) (onInstruction P B (s.serving l) p w i) := by
  unfold onInstruction
  refine ite_related rfl (.alike hR hw) (ite_related rfl (.alike hR hw) ?_)
  have h := matches_concludeStep (P := P) hA hR p { w with frame := some i.frame } i
  generalize concludeStep P A s p { w with frame := some i.frame } i = x at h ⊢
  generalize concludeStep P B (s.serving l) p { w with frame := some i.frame } i = y at h ⊢
  cases h with
  | failed hK hF => exact abreast_stopPath hK _ _ hF
  | @alike t m r hR hr =>
    cases r with
    | failed f => exact absurd rfl (hr f)
    | halt => exact .alike hR rfl
    | onward =>
      have h := matches_notify hA hR (P.scene p) (some i.frame) (.executing i)
      simp only
      generalize t.notify A (P.scene p) (some i.frame) (.executing i) = x at h ⊢
      generalize (t.serving m).notify B (P.scene p) (some i.frame) (.executing i) = y at h ⊢
      cases h with
      | failed hK hF => exact abreast_stopPath hK _ _ hF
      | @alike u m f hR hf =>
        obtain rfl : f = none := Option.eq_none_iff_forall_ne_some.mpr hf
        exact ite_related rfl (.alike hR rfl) (.alike hR hw)

/-- The program is at a choice. -/
lemma abreast_onChoice (hA : A.Concurs B R K F) (hR : R s.listeners l) (p : σ) {w : Walk}
    (hw : w.failure = none) (n : Int) :
    Abreast R K F (onChoice P A s p w n) (onChoice P B (s.serving l) p w n) := by
  unfold onChoice
  split_ifs
  · exact .alike hR hw
  · exact .alike hR hw
  · cases w.replay with
    | cons c rest =>
      refine ite_related rfl ?_ (.alike hR hw)
      have h := matches_notify hA hR (P.scene p) w.frame .restored
      generalize s.notify A (P.scene p) w.frame .restored = x at h ⊢
      generalize (s.serving l).notify B (P.scene p) w.frame .restored = y at h ⊢
      cases h with
      | failed hK hF => exact abreast_stopPath hK _ _ hF
      | @alike u m f hR hf =>
        obtain rfl : f = none := Option.eq_none_iff_forall_ne_some.mpr hf
        exact ite_related rfl (.alike hR rfl) (.alike hR hw)
    | nil =>
      have h := matches_reach hA hR (P.scene p) w.frame (.choice n.toNat)
        (P.fingerprint w.execution p w.frame (.choice n.toNat))
      simp only
      generalize s.reach A (P.scene p) w.frame (.choice n.toNat)
        (P.fingerprint w.execution p w.frame (.choice n.toNat)) = x at h ⊢
      generalize (s.serving l).reach B (P.scene p) w.frame (.choice n.toNat)
        (P.fingerprint w.execution p w.frame (.choice n.toNat)) = y at h ⊢
      cases h with
      | failed hK hF => exact abreast_stopPath hK _ _ hF
      | @alike t m r hR hr =>
        cases r with
        | failed f => exact absurd rfl (hr f)
        | halt => exact .alike hR rfl
        | onward => exact .alike hR hw

/-- The end state is reached, unless the search has been ended. -/
lemma matches_reachEnd (hA : A.Concurs B R K F) (hR : R s.listeners l) (p : σ) (n : Nat) :
    Matches R K F some (reachEnd P A s p n) (reachEnd P B (s.serving l) p n) := by
  have hunasked : (s.serving l).unasked = s.unasked.serving l := rfl
  have h := matches_reach (s := s.unasked) hA hR (P.scene p) none .finished
    (P.fingerprint n p none .finished)
  simp only [reachEnd, hunasked]
  refine ite_related rfl (.silent hR) ?_
  generalize s.unasked.reach A (P.scene p) none .finished
    (P.fingerprint n p none .finished) = x at h ⊢
  generalize (s.unasked.serving l).reach B (P.scene p) none .finished
    (P.fingerprint n p none .finished) = y at h ⊢
  cases h with
  | failed hK hF => exact .failed hK hF
  | @alike u m r hR hr =>
    cases r with
    | failed f => exact absurd rfl (hr f)
    | halt => exact .silent hR
    | onward => exact .silent hR

/-- The last instruction of the program is concluded, and the end state is reached. -/
lemma matches_finishPath (hA : A.Concurs B R K F) (hR : R s.listeners l) (p : σ) (w : Walk) :
    Matches R K F some (finishPath P A s p w) (finishPath P B (s.serving l) p w) := by
  unfold finishPath
  cases w.previous with
  | none => exact matches_reachEnd hA hR p w.execution
  | some e =>
    have hunasked : ({ s.serving l with breakReason := none } : Search M κ) =
      s.unasked.serving l := rfl
    have h := matches_notify (s := s.unasked) hA hR (P.scene p) none (.executed e none)
    simp only [hunasked]
    rw [← unasked]
    generalize s.unasked.notify A (P.scene p) none (.executed e none) = x at h ⊢
    generalize (s.unasked.serving l).notify B (P.scene p) none (.executed e none) = y at h ⊢
    cases h with
    | failed hK hF => exact .failed hK hF
    | @alike t m f hR hf =>
      obtain rfl : f = none := Option.eq_none_iff_forall_ne_some.mpr hf
      exact matches_reachEnd hA hR p w.execution

/-- An execution ends, once an exception has been reported. -/
lemma abreast_endPath (hA : A.Concurs B R K F) (hR : R s.listeners l) (p : σ) {w : Walk}
    (hw : w.failure = none) (ending : Ending) :
    Abreast R K F (endPath P A s p w ending) (endPath P B (s.serving l) p w ending) := by
  simp only [endPath, hw]
  refine ite_related rfl (abreast_afterPath hA hR) (ite_related rfl ?_ ?_)
  · exact abreast_afterPath hA (hA.report _ hR)
  · have h := matches_finishPath (P := P) hA hR p w
    generalize finishPath P A s p w = x at h ⊢
    generalize finishPath P B (s.serving l) p w = y at h ⊢
    cases h with
    | failed hK hF => exact .surfaced hK hF
    | @alike t m f hR hf =>
      obtain rfl : f = none := Option.eq_none_iff_forall_ne_some.mpr hf
      exact abreast_afterPath hA hR

/-- An execution ends. -/
lemma abreast_onEnd (hA : A.Concurs B R K F) (hR : R s.listeners l) (p : σ) {w : Walk}
    (hw : w.failure = none) (ending : Ending) :
    Abreast R K F (onEnd P A s p w ending) (onEnd P B (s.serving l) p w ending) := by
  cases ending with
  | interrupted type message =>
    exact .interrupted (s := { s with outside := P.scene p }) (hA.kept hR) type message
  | raised type message =>
    exact abreast_endPath hA (s := s.report A (raisedReport s.name type message))
      (hA.report _ hR) p hw _
  | normal => exact abreast_endPath hA hR p hw .normal
  | exit => exact abreast_endPath hA hR p hw .exit
  | stopped => exact abreast_endPath hA hR p hw .stopped

/-- An execution ends that has been stopped by failures. -/
lemma abreast_onEnd_failed (hA : A.Concurs B R K F) (hK : K s.listeners l) (p : σ) (w w' : Walk)
    {f f' : Fault} (hF : F f f') (hw : w.failure = some f) (hw' : w'.failure = some f')
    (ending : Ending) :
    Abreast R K F (onEnd P A s p w ending) (onEnd P B (s.serving l) p w' ending) := by
  cases ending with
  | interrupted type message =>
    exact .interrupted (s := { s with outside := P.scene p }) hK type message
  | raised type message =>
    simp only [onEnd, hw, hw']
    exact .surfaced (s := s.report A (raisedReport s.name type message)) (hA.report_kept _ hK) hF
  | normal | exit | stopped =>
    simp only [onEnd, hw, hw']
    exact .surfaced hK hF

omit [DecidableEq κ] in
/-- Two searches that are abreast begin so. -/
lemma abreast_begin (hA : A.Concurs B R K F) {s : Search L κ} {l : M} (hR : R s.listeners l) :
    Abreast R K F (begin A s : _ × Stage σ) (begin B (s.serving l)) := by
  have h := matches_notify hA hR s.outside none .started
  simp only [begin, serving_outside]
  generalize s.notify A s.outside none .started = x at h ⊢
  generalize (s.serving l).notify B s.outside none .started = y at h ⊢
  cases h with
  | failed hK hF => exact .surfaced hK hF
  | @alike t m f hR hf =>
    obtain rfl : f = none := Option.eq_none_iff_forall_ne_some.mpr hf
    exact .alike hR trivial

/-- Two searches that are abreast execute their programs so. -/
lemma abreast_executing (hA : A.Concurs B R K F) {s : Search L κ} {l : M} (hR : R s.listeners l)
    {p : σ} {w : Walk} (hs : (Stage.executing p w).Sound) (printed : Array String) :
    let x' := step P A ⟨s, .executing p w, printed⟩
    let y' := step P B ⟨s.serving l, .executing p w, printed⟩
    Abreast R K F (x'.search, x'.stage) (y'.search, y'.stage) ∧ y'.printed = x'.printed := by
  simp only [step]
  cases P.next p with
  | internal q => exact ⟨.alike hR hs, rfl⟩
  | print text q => exact ⟨.alike hR hs, rfl⟩
  | terminate q => exact ⟨.alike (s := { s with terminated := true }) hR hs, rfl⟩
  | effect e q =>
    simp only
    split_ifs
    · exact ⟨.alike hR hs, rfl⟩
    · exact ⟨.alike hR hs, rfl⟩
  | instruction i q => exact ⟨abreast_onInstruction hA hR q hs i, rfl⟩
  | choice n q => exact ⟨abreast_onChoice hA hR q hs n, rfl⟩
  | ended ending q => exact ⟨abreast_onEnd hA hR q hs ending, rfl⟩

/-- After a failure two searches wait for the end of the program, whatever they have become. -/
lemma abreast_failed (hA : A.Concurs B R K F) {s : Search L κ} {l : M} (hK : K s.listeners l) (p : σ)
    (w : Walk) {f f' : Fault} (hF : F f f') (printed : Array String) :
    let x' := step P A ⟨s, .executing p { w with stopping := true, failure := some f }, printed⟩
    let y' := step P B
      ⟨s.serving l, .executing p { w with stopping := true, failure := some f' }, printed⟩
    Abreast R K F (x'.search, x'.stage) (y'.search, y'.stage) ∧ y'.printed = x'.printed := by
  simp only [step]
  cases P.next p with
  | internal q => exact ⟨.stopping q w hK hF, rfl⟩
  | print text q => exact ⟨.stopping q w hK hF, rfl⟩
  | terminate q => exact ⟨.stopping (s := { s with terminated := true }) q w hK hF, rfl⟩
  | effect e q => exact ⟨.stopping q w hK hF, rfl⟩
  | instruction i q => exact ⟨.stopping (P.reply q .proceed) w hK hF, rfl⟩
  | choice n q =>
    refine ⟨?_, rfl⟩
    simp only [onChoice, if_true]
    split_ifs
    · exact .stopping _ w hK hF
    · exact .stopping _ w hK hF
  | ended ending q =>
    refine ⟨?_, rfl⟩
    exact abreast_onEnd_failed (P := P) hA hK q { w with stopping := true, failure := some f }
      { w with stopping := true, failure := some f' } hF rfl rfl ending

/-- A move keeps two searches abreast.

**Proof sketch.** As long as nothing has failed there is one case for each move of the program. After
a failure the search only waits for the end of the program: nothing is delivered, so that it does not
matter what the listeners have become. -/
theorem abreast_step (hA : A.Concurs B R K F) {x : Exploration σ L κ} {y : Exploration σ M κ}
    (h : Abreast R K F (x.search, x.stage) (y.search, y.stage)) (hp : y.printed = x.printed) :
    Abreast R K F ((step P A x).search, (step P A x).stage) ((step P B y).search, (step P B y).stage) ∧
      (step P B y).printed = (step P A x).printed := by
  obtain ⟨s, stage, printed⟩ := x
  obtain ⟨t, stage', printed'⟩ := y
  obtain rfl : printed' = printed := hp
  simp only at h
  cases h with
  | alike hR hs =>
    cases stage with
    | waiting => exact ⟨abreast_begin hA hR, rfl⟩
    | launching =>
      refine ⟨?_, rfl⟩
      simp only [step, launch]
      refine ite_related rfl (abreast_finish hA hR) ?_
      have hs : (Stage.executing (P.start s.paths) (newWalk s)).Sound := rfl
      exact .alike (s := s.unasked) hR hs
    | ended e => exact ⟨.alike hR hs, rfl⟩
    | executing p w => exact abreast_executing hA hR hs printed'
  | stopping p w hK hF => exact abreast_failed hA hK p w hF printed'
  | surfaced hK hF => exact ⟨.surfaced hK hF, rfl⟩
  | interrupted hK type message => exact ⟨.interrupted hK type message, rfl⟩

/-- Two searches that are abreast stay so in every run. -/
theorem abreast_after (hA : A.Concurs B R K F) {x : Exploration σ L κ} {y : Exploration σ M κ}
    (h : Abreast R K F (x.search, x.stage) (y.search, y.stage)) (hp : y.printed = x.printed)
    (n : Nat) :
    Abreast R K F ((after P A n x).search, (after P A n x).stage)
        ((after P B n y).search, (after P B n y).stage) ∧
      (after P B n y).printed = (after P A n x).printed := by
  induction n with
  | zero => exact ⟨h, hp⟩
  | succ n ih =>
    rw [after_succ, after_succ]
    exact abreast_step hA ih.1 ih.2

end Exploration

end StateAtlas
