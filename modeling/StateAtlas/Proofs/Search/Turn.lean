import Mathlib.Logic.Function.Iterate
import StateAtlas.Proofs.Search.Operation

set_option autoImplicit false

/-!
# The moves of an undisturbed search

A search is undisturbed as long as nobody has ended it and no listener has failed. Everything
that one move of an undisturbed search can do is one constructor of `StateAtlas.Exploration.Turn`,
so that an invariant of such searches is proved by one case distinction.

## Main definitions

* `StateAtlas.Exploration.Undisturbed` — nobody has ended the search, no listener has failed.
* `StateAtlas.Exploration.Turn` — what a move of an undisturbed search does.
* `StateAtlas.Exploration.after` — the search after a number of moves.

## Main results

* `StateAtlas.Exploration.turn_of_undisturbed` — a move of an undisturbed search is a turn.
* `StateAtlas.Exploration.undisturbed_of_le` — a search that is undisturbed has always been.
* `StateAtlas.Exploration.run_eq_some` — a run that ends has made a number of moves.
-/

namespace StateAtlas

/-- No failure of a listener is pending, and neither a failure nor a signal to the whole run has
ended the search. -/
def Stage.Sound {σ : Type} : Stage σ → Prop
  | .executing _ w => w.failure = none
  | .ended e => e = .completed
  | _ => True

instance Stage.decidableSound {σ : Type} (stage : Stage σ) : Decidable stage.Sound :=
  match stage with
  | .executing _ w => inferInstanceAs (Decidable (w.failure = none))
  | .ended e => inferInstanceAs (Decidable (e = .completed))
  | .waiting | .launching => .isTrue trivial

/-- A failure is pending only as long as the program is being stopped. -/
def Stage.Orderly {σ : Type} : Stage σ → Prop
  | .executing _ w => w.failure ≠ none → w.stopping = true
  | _ => True

/-- Whether an execution has not been told to stop. -/
def Stage.goesOn {σ : Type} : Stage σ → Bool
  | .executing _ w => !w.stopping
  | _ => false

namespace Exploration

variable {σ L κ : Type} (P : Program σ κ) (A : Audience L)

/-! ## What a move does -/

/-- Nobody has ended the search, and no listener has failed. -/
def Undisturbed (x : Exploration σ L κ) : Prop :=
  x.search.terminated = false ∧ x.stage.Sound

instance (x : Exploration σ L κ) : Decidable x.Undisturbed :=
  inferInstanceAs (Decidable (x.search.terminated = false ∧ x.stage.Sound))

/-- The search after the last instruction has been announced, if there is one. -/
def concluded (s : Search L κ) (scene : Scene) (top : Option FrameId) (previous : Option Instruction)
    (next : Option Instruction) : Search L κ :=
  match previous with
  | none => s
  | some e => s.unasked.told A scene top (.executed e next)

/-- Whether a listener asks for a boundary when the last instruction is announced. -/
def asks (s : Search L κ) (scene : Scene) (top : Option FrameId) (previous : Option Instruction)
    (next : Option Instruction) : Bool :=
  previous.isSome && (concluded A s scene top previous next).breakReason.isSome

/-- The search has passed on some reports. -/
inductive Reported : Search L κ → Search L κ → Prop
  | refl (s : Search L κ) : Reported s s
  | report {s t : Search L κ} (h : Reported s t) (r : LogRecord) : Reported s (t.report A r)

/-- An execution is counted and the search goes back, or is over. -/
inductive Leaves : Search L κ → Search L κ → Stage σ → Prop
  | resume {s t : Search L κ} (h : { s with paths := s.paths + 1 }.Retreats A t .resume) :
      Leaves s t .launching
  | done {s t : Search L κ} (h : { s with paths := s.paths + 1 }.Retreats A t .done) :
      Leaves s (t.told A t.outside none .finished) (.ended .completed)

variable {A}

/-- Reports leave everything but the listeners as it is. -/
lemma Reported.eq {s t : Search L κ} (h : Reported A s t) :
    ∃ l, t = { s with listeners := l } := by
  induction h with
  | refl => exact ⟨s.listeners, rfl⟩
  | report _ r ih =>
    obtain ⟨l, rfl⟩ := ih
    exact ⟨A.report l r, rfl⟩

/-- Reports leave the log and everything else as it is. -/
lemma Reported.eq_recorded {s t : Search (L × Log) κ} (h : Reported A.recorded s t) :
    ∃ l, t = { s with listeners := (l, s.listeners.2) } := by
  induction h with
  | refl => exact ⟨s.listeners.1, rfl⟩
  | report _ r ih =>
    obtain ⟨l, rfl⟩ := ih
    exact ⟨A.report l r, rfl⟩

section Concluded

variable (s : Search L κ) (scene : Scene) (top : Option FrameId)
  (previous next : Option Instruction)

@[simp] lemma concluded_path : (concluded A s scene top previous next).path = s.path := by
  cases previous <;> rfl

@[simp] lemma concluded_seen : (concluded A s scene top previous next).seen = s.seen := by
  cases previous <;> rfl

@[simp] lemma concluded_depthLimit :
    (concluded A s scene top previous next).depthLimit = s.depthLimit := by
  cases previous <;> rfl

@[simp] lemma concluded_maxStates :
    (concluded A s scene top previous next).maxStates = s.maxStates := by
  cases previous <;> rfl

@[simp] lemma concluded_paths : (concluded A s scene top previous next).paths = s.paths := by
  cases previous <;> rfl

end Concluded

/-- What is said when the last instruction is announced. -/
def announced (s : Search L κ) (scene : Scene) (top : Option FrameId)
    (previous next : Option Instruction) : Log :=
  (previous.map fun e => ⟨s.view scene top, .executed e next⟩).toList

/-- The announcement of the last instruction is all that is said with it. -/
lemma concluded_log {A : Audience L} (s : Search (L × Log) κ) (scene : Scene)
    (top : Option FrameId) (previous next : Option Instruction) :
    (concluded A.recorded s scene top previous next).listeners.2 =
      announced s scene top previous next ++ s.listeners.2 := by
  cases previous <;> rfl

/-- What is said of an instruction before which a boundary is asked for: the end of the last one, the
arrival at the boundary and the instruction itself. -/
lemma requested_log {A : Audience L} [DecidableEq κ] {s t : Search (L × Log) κ} {scene : Scene}
    {top : Option FrameId} {previous : Option Instruction} {i : Instruction}
    (ht : t = (concluded A.recorded s scene top previous (some i)).unasked) (key : κ) :
    ((t.entered A.recorded scene top .requested key).told A.recorded scene top
        (.executing i)).listeners.2 =
      (⟨(t.entered A.recorded scene top .requested key).view scene top, .executing i⟩ ::
        t.arrival scene top .requested key :: announced s scene top previous (some i)) ++
        s.listeners.2 := by
  rw [Search.told_log, Search.entered_log, ht, Search.unasked_listeners, concluded_log]
  rfl

/-- Every delivery of the announcement of the last instruction says that it has run. -/
lemma notice_of_announced {s : Search L κ} {scene : Scene} {top : Option FrameId}
    {previous next : Option Instruction} {d : Delivery}
    (hd : d ∈ announced s scene top previous next) : ∃ e, d.notice = .executed e next := by
  cases previous with
  | none => simp [announced] at hd
  | some e =>
    obtain rfl : d = ⟨s.view scene top, .executed e next⟩ := by simpa [announced] using hd
    exact ⟨e, rfl⟩

/-- The announcement of the last instruction adds it to the current leg. -/
lemma legs_announced {log : Log} {leg : List (Instruction × Option Instruction)}
    {legs : List (List (Instruction × Option Instruction))} (h : Log.legs log = leg :: legs)
    (s : Search L κ) (scene : Scene) (top : Option FrameId) (previous next : Option Instruction) :
    Log.legs (announced s scene top previous next ++ log) =
      (leg ++ (previous.map fun e => (e, next)).toList) :: legs := by
  cases previous with
  | none => simpa [announced] using h
  | some e => exact Log.legs_executed h _ _ _

lemma concluded_legs {A : Audience L} {s : Search (L × Log) κ}
    {leg : List (Instruction × Option Instruction)}
    {legs : List (List (Instruction × Option Instruction))}
    (h : Log.legs s.listeners.2 = leg :: legs) (scene : Scene) (top : Option FrameId)
    (previous next : Option Instruction) :
    Log.legs (concluded A.recorded s scene top previous next).listeners.2 =
      (leg ++ (previous.map fun e => (e, next)).toList) :: legs := by
  rw [concluded_log, legs_announced h]

/-- The announcement of the last instruction keeps the flag that ends the search. -/
lemma terminated_of_concluded {s : Search L κ} {scene : Scene} {top : Option FrameId}
    {previous next : Option Instruction}
    (h : (concluded A s scene top previous next).terminated = false) : s.terminated = false := by
  cases previous with
  | none => exact h
  | some e => exact Search.terminated_of_told A h

/-- The last notice ends the search. -/
lemma finish_cases {s s' : Search L κ} {stage : Stage σ} (h : finish A s = (s', stage))
    (hs : stage.Sound) : s' = s.told A s.outside none .finished ∧ stage = .ended .completed := by
  unfold finish at h
  cases hn : s.notify A s.outside none .finished with
  | mk t f =>
    rw [hn] at h
    cases f with
    | some f =>
      simp only [Prod.mk.injEq] at h
      rw [← h.2] at hs
      exact absurd hs (by simp [Stage.Sound])
    | none =>
      simp only [Prod.mk.injEq] at h
      exact ⟨h.1 ▸ Search.eq_told A hn, h.2.symm⟩

/-- Boundaries are left one after another, and then the search goes on with an alternative or comes
to its end. -/
def goBack (A : Audience L) (s : Search L κ) : Search L κ × Stage σ :=
  match s.backtrack A with
  | (s, .failed f) => (s, .ended (.failed f))
  | (s, .done) => finish A s
  | (s, .resume) => (s, .launching)

/-- After a path the search goes back or is over, unless it has been ended. -/
lemma afterPath_cases {s s' : Search L κ} {stage : Stage σ} (h : afterPath A s = (s', stage))
    (ht : s'.terminated = false) (hs : stage.Sound) : Leaves A s s' stage := by
  unfold afterPath at h
  simp only at h
  split at h
  · rename_i hterm
    obtain ⟨rfl, rfl⟩ := finish_cases h hs
    have ht' : s.terminated = false := Search.terminated_of_told A ht
    rw [ht'] at hterm
    exact absurd hterm (by simp)
  · cases hb : ({ s with paths := s.paths + 1 } : Search L κ).backtrack A with
    | mk t r =>
      rw [hb] at h
      cases r with
      | failed f =>
        simp only [Prod.mk.injEq] at h
        rw [← h.2] at hs
        exact absurd hs (by simp [Stage.Sound])
      | done =>
        simp only at h
        obtain ⟨rfl, rfl⟩ := finish_cases h hs
        exact .done (Search.backtrack_cases A hb (Search.terminated_of_told A ht) (by simp))
      | resume =>
        simp only [Prod.mk.injEq] at h
        obtain ⟨rfl, rfl⟩ := h
        exact .resume (Search.backtrack_cases A hb ht (by simp))

/-- Leaving a path keeps the flag that ends the search. -/
lemma Leaves.terminated_of {s t : Search L κ} {stage : Stage σ} (h : Leaves A s t stage)
    (ht : t.terminated = false) : s.terminated = false := by
  cases h with
  | resume h => exact h.terminated_of ht
  | done h => exact h.terminated_of (Search.terminated_of_told A ht)

/-- Leaving a path keeps the fingerprints, and the limit on the depth with the limit hit last. -/
lemma Leaves.kept {s t : Search L κ} {stage : Stage σ} (h : Leaves A s t stage) :
    t.seen = s.seen ∧ t.depthLimit = s.depthLimit ∧ t.constraint = s.constraint := by
  cases h with
  | resume h => exact h.kept
  | done h => exact h.kept

/-- Nothing but retreats and the end of the search is announced while a path is left. -/
lemma leaves_log {s t : Search (L × Log) κ} {stage : Stage σ} (h : Leaves A.recorded s t stage) :
    ∃ new, t.listeners.2 = new ++ s.listeners.2 ∧
      ∀ d ∈ new, d.notice = .backtracked ∨ d.notice = .finished := by
  cases h with
  | resume h =>
    obtain ⟨new, hlog, hnew⟩ := h.log_eq
    exact ⟨new, hlog, fun d hd => .inl (hnew d hd)⟩
  | done h =>
    obtain ⟨new, hlog, hnew⟩ := h.log_eq
    refine ⟨_ :: new, by rw [Search.told_log, hlog, List.cons_append], ?_⟩
    intro d hd
    rcases List.mem_cons.mp hd with rfl | hd
    · exact .inr rfl
    · exact .inl (hnew d hd)

/-- The program is not running after a path has been left. -/
lemma Leaves.goesOn {s t : Search L κ} {stage : Stage σ} (h : Leaves A s t stage) :
    stage.goesOn = false := by
  cases h <;> rfl

/-- The program is not running after the last notice. -/
lemma orderly_finish (s : Search L κ) : (finish A s : Search L κ × Stage σ).2.Orderly := by
  unfold finish
  split <;> trivial

/-- The program is not running after a path. -/
lemma orderly_afterPath (s : Search L κ) : (afterPath A s : Search L κ × Stage σ).2.Orderly := by
  unfold afterPath
  simp only
  split
  · exact orderly_finish _
  · split
    · trivial
    · exact orderly_finish _
    · trivial

/-- A search that has not begun, and all notices of which will be written down. -/
def fresh (name : String) (depthLimit maxStates : Option Int) (outside : Scene) (l : L) :
    Exploration σ (L × Log) κ :=
  ofSearch (.new name depthLimit maxStates outside (l, []))

lemma orderly_fresh {name : String} {depthLimit maxStates : Option Int} {outside : Scene} {l : L} :
    (fresh name depthLimit maxStates outside l : Exploration σ (L × Log) κ).stage.Orderly :=
  trivial

variable (A) [DecidableEq κ]

/-! ## Turns -/

/-- What a move of an undisturbed search does. -/
inductive Turn : Search L κ → Stage σ → Search L κ → Stage σ → Prop
  | begin {s : Search L κ} : Turn s .waiting (s.told A s.outside none .started) .launching
  | launch {s : Search L κ} :
      Turn s .launching s.unasked (.executing (P.start s.paths) (newWalk s))
  | rest {s : Search L κ} : Turn s (.ended .completed) s (.ended .completed)
  /-- A stopped program does something unobserved. -/
  | drain {s : Search L κ} {p q : σ} {w : Walk} (hw : w.stopping = true) :
      Turn s (.executing p w) s (.executing q w)
  | silent {s : Search L κ} {p q : σ} {w : Walk} (hw : w.stopping = false)
      (h : P.next p = .internal q ∨ ∃ text, P.next p = .print text q) :
      Turn s (.executing p w) s (.executing q w)
  | effect {s : Search L κ} {p q : σ} {w : Walk} {e : Effect} (hw : w.stopping = false)
      (h : P.next p = .effect e q) :
      Turn s (.executing p w) s (.executing q { w with previous := w.previous.map (·.apply e) })
  | refuse {s : Search L κ} {p q : σ} {w : Walk} {n : Int} (hw : w.stopping = false)
      (h : P.next p = .choice n q) (hn : n < 1) :
      Turn s (.executing p w) s (.executing (P.reply q (.refuse n)) w)
  | repeatInstruction {s : Search L κ} {p q : σ} {w : Walk} {i : Instruction}
      (hw : w.stopping = false) (hr : w.replay ≠ []) (h : P.next p = .instruction i q) :
      Turn s (.executing p w) s
        (.executing (P.reply q .proceed) { w with frame := some i.frame, previous := some i })
  | repeatChoice {s : Search L κ} {p q : σ} {w : Walk} {n : Int} {c : Nat} {rest : List Nat}
      (hw : w.stopping = false) (hr : w.replay = c :: rest) (hrest : rest ≠ [])
      (h : P.next p = .choice n q) (hn : 1 ≤ n) :
      Turn s (.executing p w) s (.executing (P.reply q (.choose c)) { w with replay := rest })
  | restore {s : Search L κ} {p q : σ} {w : Walk} {n : Int} {c : Nat}
      (hw : w.stopping = false) (hr : w.replay = [c]) (h : P.next p = .choice n q) (hn : 1 ≤ n) :
      Turn s (.executing p w) (s.told A (P.scene q) w.frame .restored)
        (.executing (P.reply q (.choose c)) { w with replay := [] })
  | instruct {s : Search L κ} {p q : σ} {w : Walk} {i : Instruction} (hw : w.stopping = false)
      (hr : w.replay = []) (h : P.next p = .instruction i q)
      (ha : asks A s (P.scene q) (some i.frame) w.previous (some i) = false) :
      Turn s (.executing p w)
        ((concluded A s (P.scene q) (some i.frame) w.previous (some i)).told A (P.scene q)
          (some i.frame) (.executing i))
        (.executing (P.reply q .proceed) { w with frame := some i.frame, previous := some i })
  | request {s t : Search L κ} {p q : σ} {w : Walk} {i : Instruction} {k : κ}
      (hw : w.stopping = false)
      (hr : w.replay = []) (h : P.next p = .instruction i q)
      (ha : asks A s (P.scene q) (some i.frame) w.previous (some i) = true)
      (ht : t = (concluded A s (P.scene q) (some i.frame) w.previous (some i)).unasked)
      (hc : t.Continues .requested k)
      (hk : P.fingerprint w.execution q (some i.frame) .requested = .ok k) :
      Turn s (.executing p w)
        ((t.entered A (P.scene q) (some i.frame) .requested k).told A (P.scene q) (some i.frame)
          (.executing i))
        (.executing (P.reply q .proceed) { w with frame := some i.frame, previous := some i })
  | requestHalt {s t s' : Search L κ} {p q : σ} {w : Walk} {i : Instruction} {k : κ}
      (hw : w.stopping = false) (hr : w.replay = []) (h : P.next p = .instruction i q)
      (ha : asks A s (P.scene q) (some i.frame) w.previous (some i) = true)
      (ht : t = (concluded A s (P.scene q) (some i.frame) w.previous (some i)).unasked)
      (hh : t.Halts A (P.scene q) (some i.frame) .requested k s')
      (hk : P.fingerprint w.execution q (some i.frame) .requested = .ok k) :
      Turn s (.executing p w) s' (.executing (P.reply q .stop)
        { w with frame := some i.frame, stopping := true, failure := none })
  | choose {s : Search L κ} {p q : σ} {w : Walk} {n : Int} {k : κ} (hw : w.stopping = false)
      (hr : w.replay = []) (h : P.next p = .choice n q) (hn : 1 ≤ n)
      (hc : s.Continues (.choice n.toNat) k)
      (hk : P.fingerprint w.execution q w.frame (.choice n.toNat) = .ok k) :
      Turn s (.executing p w) (s.entered A (P.scene q) w.frame (.choice n.toNat) k)
        (.executing (P.reply q (.choose 0)) w)
  | chooseHalt {s s' : Search L κ} {p q : σ} {w : Walk} {n : Int} {k : κ} (hw : w.stopping = false)
      (hr : w.replay = []) (h : P.next p = .choice n q) (hn : 1 ≤ n)
      (hh : s.Halts A (P.scene q) w.frame (.choice n.toNat) k s')
      (hk : P.fingerprint w.execution q w.frame (.choice n.toNat) = .ok k) :
      Turn s (.executing p w) s'
        (.executing (P.reply q .stop) { w with stopping := true, failure := none })
  /-- The program ends after it has been stopped, or before it has repeated its choices. -/
  | leave {s t s' : Search L κ} {stage : Stage σ} {p q : σ} {w : Walk} {ending : Ending}
      (h : P.next p = .ended ending q) (hf : w.failure = none)
      (hw : w.stopping = true ∨ ending = .stopped ∨ w.replay ≠ []) (hs : Reported A s t)
      (hl : Leaves A t s' stage) : Turn s (.executing p w) s' stage
  | finish {s t u s' : Search L κ} {stage : Stage σ} {p q : σ} {w : Walk} {ending : Ending} {k : κ}
      (h : P.next p = .ended ending q) (hf : w.failure = none) (hw : w.stopping = false)
      (he : ending ≠ .stopped) (hi : ∀ type message, ending ≠ .interrupted type message)
      (hr : w.replay = []) (hs : Reported A s t)
      (hu : u = (concluded A t (P.scene q) none w.previous none).unasked)
      (hl : Leaves A (u.entered A (P.scene q) none .finished k) s' stage)
      (hk : P.fingerprint w.execution q none .finished = .ok k) :
      Turn s (.executing p w) s' stage

variable {P A}

/-- The last instruction is announced, and a boundary is reached if a listener asks for one. -/
lemma concludeStep_cases {s s' : Search L κ} {p : σ} {w : Walk} {i : Instruction} {r : Progress}
    (h : concludeStep P A s p w i = (s', r)) (ht : s'.terminated = false)
    (hr : ∀ f, r ≠ .failed f) :
    (asks A s (P.scene p) w.frame w.previous (some i) = false ∧ r = .onward ∧
        s' = concluded A s (P.scene p) w.frame w.previous (some i)) ∨
      ∃ t k, t = (concluded A s (P.scene p) w.frame w.previous (some i)).unasked ∧
        asks A s (P.scene p) w.frame w.previous (some i) = true ∧
        P.fingerprint w.execution p w.frame .requested = .ok k ∧
        ((r = .onward ∧ t.Continues .requested k ∧
            s' = t.entered A (P.scene p) w.frame .requested k) ∨
          (r = .halt ∧ t.Halts A (P.scene p) w.frame .requested k s')) := by
  unfold concludeStep at h
  cases hp : w.previous with
  | none =>
    rw [hp] at h
    obtain ⟨rfl, rfl⟩ := Prod.mk.inj h
    exact .inl ⟨rfl, rfl, rfl⟩
  | some e =>
    rw [hp] at h
    simp only at h
    cases hn : s.unasked.notify A (P.scene p) w.frame
        (.executed e (some i)) with
    | mk t f =>
      have hs : t = concluded A s (P.scene p) w.frame (some e) (some i) := Search.eq_told A hn
      rw [Search.unasked] at hn
      rw [hn] at h
      cases f with
      | some f => simp only [Prod.mk.injEq] at h; exact absurd h.2.symm (hr f)
      | none =>
        simp only at h
        split at h
        · rename_i hb
          obtain ⟨k, hk, h⟩ := Search.advance_of_reach A h hr
          refine .inr ⟨_, k, rfl, by simpa [asks, ← hs] using hb, hk, ?_⟩
          rw [← hs]
          exact Search.advance_cases A h ht hr
        · rename_i hb
          obtain ⟨rfl, rfl⟩ := Prod.mk.inj h
          exact .inl ⟨by simpa [asks, ← hs] using hb, rfl, hs⟩

/-- A path that is stopped without a failure is stopped by a search that goes on. -/
lemma onInstruction_turn {s s' : Search L κ} {stage : Stage σ} {p q : σ} {w : Walk}
    {i : Instruction} (hp : P.next p = .instruction i q)
    (h : onInstruction P A s q w i = (s', stage)) (ht : s'.terminated = false)
    (hs : stage.Sound) : Turn P A s (.executing p w) s' stage := by
  unfold onInstruction at h
  split at h
  · rename_i hstop
    obtain ⟨rfl, rfl⟩ := Prod.mk.inj h
    exact .drain hstop
  · rename_i hstop
    rw [Bool.not_eq_true] at hstop
    simp only at h
    split at h
    · rename_i hr
      obtain ⟨rfl, rfl⟩ := Prod.mk.inj h
      exact .repeatInstruction hstop (by simpa using hr) hp
    · rename_i hr
      have hr : w.replay = [] := by simpa using hr
      cases hc : concludeStep P A s q { w with frame := some i.frame } i with
      | mk t r =>
        rw [hc] at h
        cases r with
        | failed f =>
          obtain ⟨rfl, rfl⟩ := Prod.mk.inj h
          simp [Stage.Sound] at hs
        | halt =>
          obtain ⟨rfl, rfl⟩ := Prod.mk.inj h
          rcases concludeStep_cases hc ht (by simp) with ⟨-, hr', -⟩ | ⟨u, k, hu, ha, hk, hres⟩
          · simp at hr'
          · rcases hres with ⟨hr', -⟩ | ⟨-, hh⟩
            · simp at hr'
            · exact .requestHalt hstop hr hp ha hu hh hk
        | onward =>
          simp only at h
          cases hn : t.notify A (P.scene q) (some i.frame) (.executing i) with
          | mk u f =>
            have hu : u = t.told A (P.scene q) (some i.frame) (.executing i) :=
              Search.eq_told A hn
            rw [hn] at h
            cases f with
            | some f =>
              obtain ⟨rfl, rfl⟩ := Prod.mk.inj h
              simp [Stage.Sound] at hs
            | none =>
              simp only at h
              split at h
              · rename_i hterm
                obtain ⟨rfl, rfl⟩ := Prod.mk.inj h
                rw [ht] at hterm
                exact absurd hterm (by simp)
              · obtain ⟨rfl, rfl⟩ := Prod.mk.inj h
                rw [hu] at ht ⊢
                rcases concludeStep_cases hc (Search.terminated_of_told A ht) (by simp) with
                  ⟨ha, -, rfl⟩ | ⟨v, k, hv, ha, hk, hres⟩
                · exact .instruct hstop hr hp ha
                · rcases hres with ⟨-, hcont, rfl⟩ | ⟨hr', -⟩
                  · exact .request hstop hr hp ha hv hcont hk
                  · simp at hr'

section Choices

variable {s s' : Search L κ} {stage : Stage σ} {p q : σ} {w : Walk} {n : Int}
  (hp : P.next p = .choice n q) (hn : 1 ≤ n) (hstop : w.stopping = false)
  (ht : s'.terminated = false) (hs : stage.Sound)

include hp hn hstop ht hs

/-- A choice that has been made before is repeated, and restored if it is the last one. -/
lemma onChoice_repeated_turn {c : Nat} {rest : List Nat} (hr : w.replay = c :: rest)
    (h : onChoice P A s q w n = (s', stage)) : Turn P A s (.executing p w) s' stage := by
  have hpos : ¬ n < 1 := by omega
  simp only [onChoice, hpos, hstop, hr, if_false, Bool.false_eq_true] at h
  split at h
  · rename_i hrest
    have hrest : rest = [] := by simpa using hrest
    subst hrest
    cases hnot : s.notify A (P.scene q) w.frame .restored with
    | mk t f =>
      have hst : t = s.told A (P.scene q) w.frame .restored := Search.eq_told A hnot
      rw [hnot] at h
      cases f with
      | some f =>
        obtain ⟨rfl, rfl⟩ := Prod.mk.inj h
        simp [Stage.Sound] at hs
      | none =>
        simp only at h
        split at h
        · rename_i hterm
          obtain ⟨rfl, rfl⟩ := Prod.mk.inj h
          rw [ht] at hterm
          exact absurd hterm (by simp)
        · obtain ⟨rfl, rfl⟩ := Prod.mk.inj h
          have hturn : Turn P A s (.executing p w) _ _ := .restore hstop hr hp hn
          rwa [hstop, ← hst] at hturn
  · rename_i hrest
    obtain ⟨rfl, rfl⟩ := Prod.mk.inj h
    have hturn := Turn.repeatChoice (A := A) (s := s) hstop hr (by simpa using hrest) hp hn
    rwa [hstop] at hturn

/-- A choice that has not been made before is a boundary. -/
lemma onChoice_new_turn (hr : w.replay = []) (h : onChoice P A s q w n = (s', stage)) :
    Turn P A s (.executing p w) s' stage := by
  have hpos : ¬ n < 1 := by omega
  simp only [onChoice, hpos, hstop, hr, if_false, Bool.false_eq_true] at h
  cases hadv : s.reach A (P.scene q) w.frame (.choice n.toNat)
      (P.fingerprint w.execution q w.frame (.choice n.toNat)) with
  | mk t r =>
    rw [hadv] at h
    cases r with
    | failed f =>
      obtain ⟨rfl, rfl⟩ := Prod.mk.inj h
      simp [Stage.Sound] at hs
    | halt =>
      obtain ⟨rfl, rfl⟩ := Prod.mk.inj h
      obtain ⟨k, hk, hadv⟩ := Search.advance_of_reach A hadv (by simp)
      rcases Search.advance_cases A hadv ht (by simp) with ⟨hr', -⟩ | ⟨-, hh⟩
      · simp at hr'
      · exact .chooseHalt hstop hr hp hn hh hk
    | onward =>
      obtain ⟨rfl, rfl⟩ := Prod.mk.inj h
      obtain ⟨k, hk, hadv⟩ := Search.advance_of_reach A hadv (by simp)
      rcases Search.advance_cases A hadv ht (by simp) with ⟨-, hc, rfl⟩ | ⟨hr', -⟩
      · exact .choose hstop hr hp hn hc hk
      · simp at hr'

end Choices

/-- At a choice the search repeats an alternative, enters a boundary, or goes on stopping. -/
lemma onChoice_turn {s s' : Search L κ} {stage : Stage σ} {p q : σ} {w : Walk} {n : Int}
    (hp : P.next p = .choice n q)
    (h : onChoice P A s q w n = (s', stage)) (ht : s'.terminated = false)
    (hs : stage.Sound) : Turn P A s (.executing p w) s' stage := by
  by_cases hn : n < 1
  · rw [onChoice, if_pos hn] at h
    obtain ⟨rfl, rfl⟩ := Prod.mk.inj h
    cases hstop : w.stopping with
    | true => exact .drain hstop
    | false => exact .refuse hstop hp hn
  · cases hstop : w.stopping with
    | true =>
      rw [onChoice, if_neg hn, if_pos hstop] at h
      obtain ⟨rfl, rfl⟩ := Prod.mk.inj h
      exact .drain hstop
    | false =>
      cases hr : w.replay with
      | nil => exact onChoice_new_turn hp (by omega) hstop ht hs hr h
      | cons c rest => exact onChoice_repeated_turn hp (by omega) hstop ht hs hr h

variable (P A) in
/-- The end of the program once the last instruction has been concluded: an end state is reached
unless the search has been ended. -/
def reachEnd (s : Search L κ) (p : σ) (execution : Nat) : Search L κ × Option Fault :=
  if s.unasked.terminated then (s.unasked, none)
  else
    match s.unasked.reach A (P.scene p) none .finished
        (P.fingerprint execution p none .finished) with
    | (t, .failed f) => (t, some f)
    | (t, _) => (t, none)

variable (P A) in
/-- The end of an execution once an exception has been reported: the path is left or finished. -/
def endPath (s : Search L κ) (p : σ) (w : Walk) (ending : Ending) : Search L κ × Stage σ :=
  match w.failure with
  | some f => (s, .ended (.failed f))
  | none =>
    if w.stopping || ending = .stopped then afterPath A s
    else if !w.replay.isEmpty then
      afterPath A (s.report A (shortReport s.name w.replayLength))
    else
      match finishPath P A s p w with
      | (t, some f) => (t, .ended (.failed f))
      | (t, none) => afterPath A t

/-- The last instruction is announced when the program has ended. -/
lemma finishPath_eq (s : Search L κ) (p : σ) (w : Walk) :
    ∃ f, finishPath P A s p w =
      match concluded A s (P.scene p) none w.previous none, f with
      | t, some f => (t, some f)
      | t, none =>
        let t := t.unasked
        if t.terminated then (t, none)
        else
          match t.reach A (P.scene p) none .finished
              (P.fingerprint w.execution p none .finished) with
          | (t, .failed f) => (t, some f)
          | (t, _) => (t, none) := by
  unfold finishPath concluded
  cases w.previous with
  | none => exact ⟨none, rfl⟩
  | some e =>
    refine ⟨(s.unasked.notify A (P.scene p) none
      (.executed e none)).2, ?_⟩
    simp only [Search.told, Search.unasked]
    cases ({ s with breakReason := none } : Search L κ).notify A (P.scene p) none
      (.executed e none) with
    | mk t f => cases f <;> rfl

/-- The end of the program is announced, and an end state entered. -/
lemma finishPath_cases {s s' : Search L κ} {p : σ} {w : Walk}
    (h : finishPath P A s p w = (s', none)) (ht : s'.terminated = false) :
    ∃ k, P.fingerprint w.execution p none .finished = .ok k ∧
      s' = (concluded A s (P.scene p) none w.previous none).unasked.entered A (P.scene p) none
        .finished k := by
  obtain ⟨f, hf⟩ := finishPath_eq (P := P) (A := A) s p w
  rw [hf] at h
  set t : Search L κ := concluded A s (P.scene p) none w.previous none
  cases f with
  | some f => simp at h
  | none =>
    simp only at h
    split at h
    · rename_i hterm
      obtain ⟨rfl, -⟩ := Prod.mk.inj h
      rw [ht] at hterm
      exact absurd hterm (by simp)
    · cases hadv : t.unasked.reach A (P.scene p) none
          .finished (P.fingerprint w.execution p none .finished) with
      | mk u r =>
        rw [hadv] at h
        have hr : ∀ f, r ≠ .failed f := by
          rintro f rfl
          simp at h
        have hu : u = s' := by
          cases r with
          | failed f => exact absurd rfl (hr f)
          | halt => exact (Prod.mk.inj h).1
          | onward => exact (Prod.mk.inj h).1
        subst hu
        obtain ⟨k, hk, hadv⟩ := Search.advance_of_reach A hadv hr
        refine ⟨k, hk, ?_⟩
        rcases Search.advance_cases A hadv ht hr with ⟨-, hc, -⟩ | ⟨-, hh⟩
        · exact absurd rfl hc.unfinished
        · cases hh with
          | matched => rfl
          | limited _ hb _ => exact absurd rfl hb

/-- At the end of an execution an exception is reported, and then the path is left or finished. -/
lemma onEnd_eq (s : Search L κ) (q : σ) (w : Walk) {ending : Ending}
    (hi : ∀ type message, ending ≠ .interrupted type message) :
    ∃ t, Reported A s t ∧ onEnd P A s q w ending = endPath P A t q w ending := by
  cases ending with
  | interrupted type message => exact absurd rfl (hi type message)
  | raised type message => exact ⟨_, .report (.refl s) _, rfl⟩
  | normal => exact ⟨s, .refl s, rfl⟩
  | exit => exact ⟨s, .refl s, rfl⟩
  | stopped => exact ⟨s, .refl s, rfl⟩

/-- At the end of the program the path is left, unless a signal ends the whole run. -/
lemma onEnd_turn {s s' : Search L κ} {stage : Stage σ} {p q : σ} {w : Walk} {ending : Ending}
    (hp : P.next p = .ended ending q) (h : onEnd P A s q w ending = (s', stage))
    (ht : s'.terminated = false) (hs : stage.Sound) : Turn P A s (.executing p w) s' stage := by
  by_cases hi : ∃ type message, ending = .interrupted type message
  · obtain ⟨type, message, rfl⟩ := hi
    obtain ⟨rfl, rfl⟩ := Prod.mk.inj h
    exact absurd hs (by simp [Stage.Sound])
  · -- from here on the program ended by itself, by an exception, or because it was stopped
    have hi : ∀ type message, ending ≠ .interrupted type message :=
      fun type message he => hi ⟨type, message, he⟩
    obtain ⟨t, hrep, hend⟩ := onEnd_eq (P := P) (A := A) s q w hi
    rw [hend, endPath] at h
    cases hf : w.failure with
    | some f =>
      rw [hf] at h
      obtain ⟨rfl, rfl⟩ := Prod.mk.inj h
      exact absurd hs (by simp [Stage.Sound])
    | none =>
      rw [hf] at h
      simp only at h
      split at h
      · rename_i hstop
        refine .leave hp hf ?_ hrep (afterPath_cases h ht hs)
        simp only [Bool.or_eq_true, decide_eq_true_eq] at hstop
        rcases hstop with hstop | hstop
        · exact .inl hstop
        · exact .inr (.inl hstop)
      · rename_i hstop
        simp only [Bool.or_eq_true, decide_eq_true_eq, not_or, Bool.not_eq_true] at hstop
        split at h
        · rename_i hr
          exact .leave hp hf (.inr (.inr (by simpa using hr))) (.report hrep _)
            (afterPath_cases h ht hs)
        · rename_i hr
          have hr : w.replay = [] := by simpa using hr
          cases hfin : finishPath P A t q w with
          | mk u f =>
            rw [hfin] at h
            cases f with
            | some f =>
              obtain ⟨rfl, rfl⟩ := Prod.mk.inj h
              exact absurd hs (by simp [Stage.Sound])
            | none =>
              simp only at h
              have hl := afterPath_cases h ht hs
              have hu : u.terminated = false := hl.terminated_of ht
              obtain ⟨k, hk, rfl⟩ := finishPath_cases hfin hu
              exact .finish hp hf hstop.1 hstop.2 hi hr hrep rfl hl hk

/-- The beginning of a search is a turn if no listener fails. -/
lemma begin_turn {s s' : Search L κ} {stage : Stage σ} (h : begin A s = (s', stage))
    (hs : stage.Sound) : Turn P A s .waiting s' stage := by
  unfold begin at h
  cases hn : s.notify A s.outside none .started with
  | mk t f =>
    rw [hn] at h
    cases f with
    | some f =>
      obtain ⟨rfl, rfl⟩ := Prod.mk.inj h
      simp [Stage.Sound] at hs
    | none =>
      obtain ⟨rfl, rfl⟩ := Prod.mk.inj h
      exact Search.eq_told A hn ▸ .begin

/-- An execution is begun, unless the search has been ended. -/
lemma launch_turn {s s' : Search L κ} {stage : Stage σ} (h : launch P A s = (s', stage))
    (ht : s'.terminated = false) (hs : stage.Sound) : Turn P A s .launching s' stage := by
  unfold launch at h
  split at h
  · rename_i hterm
    obtain ⟨rfl, -⟩ := finish_cases h hs
    rw [Search.terminated_of_told A ht] at hterm
    exact absurd hterm (by simp)
  · obtain ⟨rfl, rfl⟩ := Prod.mk.inj h
    exact .launch

/-- A move after which a search is undisturbed is a turn.

**Proof sketch.** One case for each stage, and one for each move of the program. -/
theorem turn_of_undisturbed {x : Exploration σ L κ} (h : (step P A x).Undisturbed) :
    Turn P A x.search x.stage (step P A x).search (step P A x).stage := by
  obtain ⟨s, stage, printed⟩ := x
  obtain ⟨ht, hs⟩ := h
  cases stage with
  | waiting => exact begin_turn rfl hs
  | launching => exact launch_turn rfl ht hs
  | ended e =>
    obtain rfl : e = .completed := hs
    exact .rest
  | executing p w =>
    cases hp : P.next p with
    | internal q =>
      simp only [step, hp]
      cases hw : w.stopping with
      | true => exact .drain hw
      | false => exact .silent hw (.inl hp)
    | print text q =>
      simp only [step, hp]
      cases hw : w.stopping with
      | true => exact .drain hw
      | false => exact .silent hw (.inr ⟨text, hp⟩)
    | effect e q =>
      simp only [step, hp]
      by_cases hw : w.stopping = true
      · rw [if_pos hw]
        exact .drain hw
      · rw [if_neg hw]
        exact .effect (by simpa using hw) hp
    | terminate q => simp [step, hp] at ht
    | instruction i q =>
      simp only [step, hp] at ht hs ⊢
      exact onInstruction_turn hp rfl ht hs
    | choice n q =>
      simp only [step, hp] at ht hs ⊢
      exact onChoice_turn hp rfl ht hs
    | ended ending q =>
      simp only [step, hp] at ht hs ⊢
      exact onEnd_turn hp rfl ht hs

/-- A turn keeps the limit on the depth. -/
lemma Turn.depthLimit_eq {s s' : Search L κ} {stage stage' : Stage σ}
    (h : Turn P A s stage s' stage') : s'.depthLimit = s.depthLimit := by
  cases h with
  | instruct => simp
  | request _ _ _ _ ht => simp [ht]
  | requestHalt _ _ _ _ ht hh => simp [ht, hh.depthLimit_eq]
  | choose => simp
  | chooseHalt _ _ _ _ hh => exact hh.depthLimit_eq
  | leave _ _ _ hs hl =>
    obtain ⟨l, rfl⟩ := hs.eq
    exact hl.kept.2.1
  | finish _ _ _ _ _ _ hs hu hl =>
    obtain ⟨l, rfl⟩ := hs.eq
    rw [hl.kept.2.1]
    simp [hu]
  | _ => rfl

/-! ## Runs -/

/-- Before a turn that leaves a search undisturbed, the search was undisturbed. -/
lemma Turn.undisturbed_before {s s' : Search L κ} {stage stage' : Stage σ}
    (h : Turn P A s stage s' stage') (ho : stage.Orderly) (ht : s'.terminated = false)
    (hs : stage'.Sound) : s.terminated = false ∧ stage.Sound := by
  have calm : ∀ {w : Walk}, (w.failure ≠ none → w.stopping = true) → w.stopping = false →
      w.failure = none := by
    intro w ho hw
    by_contra hf
    rw [ho hf] at hw
    exact absurd hw (by simp)
  cases h with
  | begin => exact ⟨Search.terminated_of_told A ht, trivial⟩
  | launch => exact ⟨ht, trivial⟩
  | rest => exact ⟨ht, rfl⟩
  | drain hw => exact ⟨ht, hs⟩
  | silent hw h => exact ⟨ht, hs⟩
  | effect hw h => exact ⟨ht, hs⟩
  | refuse hw h hn => exact ⟨ht, hs⟩
  | repeatInstruction hw hr h => exact ⟨ht, hs⟩
  | repeatChoice hw hr hrest h hn => exact ⟨ht, hs⟩
  | restore hw hr h hn => exact ⟨Search.terminated_of_told A ht, hs⟩
  | instruct hw hr h ha => exact ⟨terminated_of_concluded (Search.terminated_of_told A ht), hs⟩
  | request hw hr h ha htt hc =>
    subst htt
    have ht := Search.terminated_of_entered A (Search.terminated_of_told A ht)
    exact ⟨terminated_of_concluded ht, hs⟩
  | requestHalt hw hr h ha htt hh =>
    subst htt
    exact ⟨terminated_of_concluded (hh.terminated_of ht), calm ho hw⟩
  | choose hw hr h hn hc => exact ⟨Search.terminated_of_entered A ht, hs⟩
  | chooseHalt hw hr h hn hh => exact ⟨hh.terminated_of ht, calm ho hw⟩
  | leave h hf hw hs' hl =>
    obtain ⟨l, rfl⟩ := hs'.eq
    exact ⟨hl.terminated_of ht, hf⟩
  | finish h hf hw he hi hr hs' hu hl =>
    subst hu
    obtain ⟨l, rfl⟩ := hs'.eq
    have ht := Search.terminated_of_entered A (hl.terminated_of ht)
    rw [Search.unasked_terminated] at ht
    have ht := terminated_of_concluded ht
    exact ⟨ht, hf⟩

section Orderly

variable {s : Search L κ} {q : σ} {w : Walk} (h : w.failure ≠ none → w.stopping = true)

include h

/-- An instruction leaves a failure pending only if the program is being stopped. -/
lemma orderly_onInstruction (i : Instruction) : (onInstruction P A s q w i).2.Orderly := by
  unfold onInstruction
  split
  · exact h
  · simp only
    split
    · exact h
    · split
      · exact fun _ => rfl
      · exact fun _ => rfl
      · split
        · exact fun _ => rfl
        · split
          · exact fun _ => rfl
          · exact h

/-- A choice leaves a failure pending only if the program is being stopped. -/
lemma orderly_onChoice (n : Int) : (onChoice P A s q w n).2.Orderly := by
  unfold onChoice
  split
  · exact h
  · split
    · exact h
    · split
      · simp only
        split
        · split
          · exact fun _ => rfl
          · split
            · exact fun _ => rfl
            · exact h
        · exact h
      · simp only
        split
        · exact fun _ => rfl
        · exact fun _ => rfl
        · exact h

omit h in
/-- The end of the program leaves no failure pending. -/
lemma orderly_onEnd (ending : Ending) : (onEnd P A s q w ending).2.Orderly := by
  unfold onEnd
  split
  · trivial
  · simp only
    split
    · trivial
    · split
      · exact orderly_afterPath _
      · split
        · exact orderly_afterPath _
        · split
          · trivial
          · exact orderly_afterPath _

end Orderly

/-- A failure stays pending until the program has been left.

**Proof sketch.** Only `stopPath` makes a failure pending, and it starts the stopping. -/
lemma orderly_step {x : Exploration σ L κ} (h : x.stage.Orderly) :
    (step P A x).stage.Orderly := by
  obtain ⟨s, stage, printed⟩ := x
  cases stage with
  | waiting =>
    simp only [step, begin]
    split <;> trivial
  | launching =>
    simp only [step, launch]
    split
    · exact orderly_finish s
    · exact fun hf => absurd rfl hf
  | ended e => trivial
  | executing p w =>
    have h : w.failure ≠ none → w.stopping = true := h
    cases hp : P.next p with
    | internal q | print text q | terminate q =>
      simp only [step, hp]
      exact h
    | effect e q =>
      simp only [step, hp]
      split <;> exact h
    | instruction i q =>
      simp only [step, hp]
      exact orderly_onInstruction h i
    | choice n q =>
      simp only [step, hp]
      exact orderly_onChoice h n
    | ended ending q =>
      simp only [step, hp]
      exact orderly_onEnd ending

variable (P A) in
/-- The search after a number of moves. -/
def after (n : Nat) (x : Exploration σ L κ) : Exploration σ L κ := (step P A)^[n] x

@[simp] lemma after_zero (x : Exploration σ L κ) : after P A 0 x = x := rfl

lemma after_succ (n : Nat) (x : Exploration σ L κ) :
    after P A (n + 1) x = step P A (after P A n x) := Function.iterate_succ_apply' _ n x

lemma after_add (m n : Nat) (x : Exploration σ L κ) :
    after P A (m + n) x = after P A m (after P A n x) := Function.iterate_add_apply _ m n x

/-- In an orderly search a failure is pending only while the program is being stopped. -/
lemma orderly_after {x : Exploration σ L κ} (h : x.stage.Orderly) (n : Nat) :
    (after P A n x).stage.Orderly := by
  induction n with
  | zero => exact h
  | succ n ih =>
    rw [after_succ]
    exact orderly_step ih

/-- A search that is over stays as it is. -/
lemma after_of_over {x : Exploration σ L κ} {e : Exit} {m n : Nat}
    (h : (after P A m x).stage = .ended e) (hmn : m ≤ n) : after P A n x = after P A m x := by
  induction hmn with
  | refl => rfl
  | @step n _ ih =>
    rw [after_succ, ih]
    revert h
    generalize after P A m x = z
    intro h
    obtain ⟨s, stage, printed⟩ := z
    obtain rfl : stage = .ended e := h
    rfl

/-- A search that is undisturbed has always been. -/
theorem undisturbed_of_le {x : Exploration σ L κ} (ho : x.stage.Orderly) {m n : Nat}
    (hmn : m ≤ n) (h : (after P A n x).Undisturbed) : (after P A m x).Undisturbed := by
  induction hmn with
  | refl => exact h
  | @step n _ ih =>
    rw [after_succ] at h
    exact ih ((turn_of_undisturbed h).undisturbed_before (orderly_after ho n) h.1 h.2)

/-- A run that ends has made a number of moves. -/
theorem run_eq_some {fuel : Nat} : ∀ {x y : Exploration σ L κ} {e : Exit},
    run P A fuel x = (y, some e) → ∃ n, y = after P A n x ∧ y.stage = .ended e := by
  induction fuel with
  | zero => intro x y e h; simp [run] at h
  | succ fuel ih =>
    intro x y e h
    rw [run] at h
    split at h
    · rename_i e' he
      obtain ⟨rfl, he'⟩ := Prod.mk.inj h
      obtain rfl := Option.some.inj he'
      exact ⟨0, rfl, he⟩
    · obtain ⟨n, hy, he⟩ := ih h
      exact ⟨n + 1, by rw [hy, after_add]; rfl, he⟩

/-- A search that is over after a number of moves is the result of a run. -/
theorem exists_run_eq {n : Nat} : ∀ {x : Exploration σ L κ} {e : Exit},
    (after P A n x).stage = .ended e → ∃ fuel, run P A fuel x = (after P A n x, some e) := by
  induction n with
  | zero =>
    intro x e h
    refine ⟨1, ?_⟩
    rw [run]
    simp only [after_zero] at h
    simp [h]
  | succ n ih =>
    intro x e h
    rw [after_add] at h ⊢
    obtain ⟨fuel, hf⟩ := ih h
    cases hx : x.stage with
    | ended e' =>
      have hstep : step P A x = x := by
        obtain ⟨s, stage, printed⟩ := x
        obtain rfl : stage = .ended e' := hx
        rfl
      refine ⟨fuel, ?_⟩
      simpa [after, hstep] using hf
    | _ =>
      refine ⟨fuel + 1, ?_⟩
      rw [run]
      simp only [hx]
      exact hf

end Exploration

end StateAtlas
