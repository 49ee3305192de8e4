import Mathlib.Logic.Relation
import StateAtlas.Proofs.Search.Saying

set_option autoImplicit false

/-!
# The acts of a search

Whatever becomes of a search, a move of it is a sequence of a few acts: it notes something, tells
its listeners something, reaches a boundary, leaves one, or turns to the next alternative of a
choice. What an act may be depends on how the search stands towards the program alone, so that an
invariant of all runs, disturbed or not, is proved by one case for each act.

## Main definitions

* `StateAtlas.Phase` — how a search stands towards the program it explores.
* `StateAtlas.Search.Act` — one act of a search.
* `StateAtlas.Exploration.phase` — the phase a search is in.

## Main results

* `StateAtlas.Exploration.acts_step` — a move is a sequence of acts.
* `StateAtlas.Exploration.acts_after` — so is a run.
* `StateAtlas.Exploration.invariant_after` — what every act keeps holds in every run.
* `StateAtlas.Exploration.listeners_after` — so does what the listeners keep, whatever they hear.

## Design

The acts do not mention the program. A claim about all programs is a claim about all sequences of
acts, and an act that a program cannot bring about does no harm as long as the invariant allows it.
-/

namespace StateAtlas

variable {σ L κ : Type}

/-- How a search stands towards the program it explores. -/
inductive Phase where
  /-- Nothing has been said. -/
  | waiting
  /-- No execution has begun. -/
  | fresh
  /-- An execution repeats the choices of the path. -/
  | repeating
  /-- An execution goes on along the path. The last instruction is known until it has been
  announced. -/
  | running (previous : Option Instruction)
  /-- The path is over. -/
  | resting
  /-- A listener has failed. -/
  | broken
  /-- The search is over, completed or not. -/
  | over (completed : Bool)

namespace Phase

/-- The phase after a notice: the given one, unless a listener fails. -/
def told (f : Option Fault) (φ : Phase) : Phase := if f.isSome then .broken else φ

/-- The phase after a boundary has been reached in a running execution. -/
def after (previous : Option Instruction) : Progress → Phase
  | .onward => .running previous
  | .halt => .resting
  | .failed _ => .broken

/-- The phase after some boundaries have been left. -/
def back : Retreat → Phase
  | .resume => .repeating
  | .done => .resting
  | .failed _ => .broken

@[simp] lemma told_none (φ : Phase) : told none φ = φ := rfl

@[simp] lemma told_some (f : Fault) (φ : Phase) : told (some f) φ = .broken := rfl

@[simp] lemma after_onward (previous : Option Instruction) : after previous .onward = .running previous := rfl

@[simp] lemma after_halt (previous : Option Instruction) : after previous .halt = .resting := rfl

@[simp] lemma after_failed (previous : Option Instruction) (f : Fault) :
    after previous (.failed f) = .broken := rfl

@[simp] lemma back_resume : back .resume = .repeating := rfl

end Phase

namespace Search

/-- The phase before an execution: there may be choices to be repeated. -/
def opening (s : Search L κ) : Phase := if s.replay = [] then .fresh else .repeating

variable [DecidableEq κ] (A : Audience L)

/-- One act of a search. -/
inductive Act : Search L κ × Phase → Search L κ × Phase → Prop
  | report {s : Search L κ} {φ : Phase} (r : LogRecord) : Act (s, φ) (s.report A r, φ)
  /-- The search changes what it keeps for itself; the flag that ends it is never taken back. -/
  | note {s : Search L κ} {φ : Phase} (reason : Option String) (flag : Bool) (paths : Nat)
      (outside : Scene) :
      Act (s, φ) ({ s with
        breakReason := reason, terminated := s.terminated || flag, paths, outside }, φ)
  | begin {s t : Search L κ} {f : Option Fault} (h : s.notify A s.outside none .started = (t, f)) :
      Act (s, .waiting) (t, .told f t.opening)
  | start {s : Search L κ} : Act (s, .fresh) (s, .running none)
  | effect {s : Search L κ} {previous : Option Instruction} (e : Effect) :
      Act (s, .running previous) (s, .running (previous.map (·.apply e)))
  | conclude {s t : Search L κ} {scene : Scene} {top : Option FrameId} {e : Instruction}
      {next : Option Instruction} {f : Option Fault}
      (h : s.notify A scene top (.executed e next) = (t, f)) :
      Act (s, .running (some e)) (t, .told f (.running none))
  | execute {s t : Search L κ} {scene : Scene} {top : Option FrameId} {i : Instruction}
      {f : Option Fault} (h : s.notify A scene top (.executing i) = (t, f)) :
      Act (s, .running none) (t, .told f (.running (some i)))
  | reach {s t : Search L κ} {scene : Scene} {top : Option FrameId} {b : Boundary} {key : κ}
      {previous : Option Instruction} {r : Progress} (h : s.advance A scene top b key = (t, r)) :
      Act (s, .running previous) (t, .after previous r)
  /-- A boundary has no fingerprint. -/
  | unmade {s : Search L κ} {previous : Option Instruction} :
      Act (s, .running previous) (s, .broken)
  | restore {s t : Search L κ} {scene : Scene} {top : Option FrameId} {f : Option Fault}
      (previous : Option Instruction) (h : s.notify A scene top .restored = (t, f)) :
      Act (s, .repeating) (t, .told f (.running previous))
  /-- An execution ends, or is not begun any more. -/
  | quit {s : Search L κ} {φ : Phase} (hb : φ ≠ .broken) (ho : ∀ completed, φ ≠ .over completed) :
      Act (s, φ) (s, .resting)
  | retreat {s t : Search L κ} {e : PathEntry} {rest : List PathEntry} {f : Option Fault}
      (hp : s.path = e :: rest) (ht : s.terminated = false)
      (h : (s.back rest).notify A s.outside none .backtracked = (t, f)) :
      Act (s, .resting) (t, .told f .resting)
  | turn {s : Search L κ} {e : PathEntry} {below : List PathEntry} (hp : s.path = e :: below)
      (hm : e.hasMore = true) (ht : s.terminated = false) :
      Act (s, .resting) ({ s with path := e.nextChoice :: below }, .repeating)
  | finish {s t : Search L κ} {f : Option Fault}
      (h : s.notify A s.outside none .finished = (t, f)) : Act (s, .resting) (t, .over f.isNone)
  | leave {s : Search L κ} {φ : Phase} : Act (s, φ) (s, .over false)

/-- A sequence of acts of a search. -/
abbrev Acts : Search L κ × Phase → Search L κ × Phase → Prop := Relation.ReflTransGen (Act A)

variable {A}

/-- No listener wants the transition to end any more. -/
lemma Acts.unasked (s : Search L κ) (φ : Phase) : Acts A (s, φ) (s.unasked, φ) := by
  have h : Act A (s, φ) _ := .note none false s.paths s.outside
  simp only [Bool.or_false] at h
  exact .single h

/-- A boundary is reached, unless it has no fingerprint. -/
lemma Acts.reached {s t : Search L κ} {scene : Scene} {top : Option FrameId} {b : Boundary}
    {fingerprint : Except Fault κ} {r : Progress} (h : s.reach A scene top b fingerprint = (t, r))
    (previous : Option Instruction) : Acts A (s, .running previous) (t, .after previous r) := by
  rcases reach_cases A h with ⟨f, -, rfl, rfl⟩ | ⟨key, -, hadv⟩
  · exact .single .unmade
  · exact .single (.reach hadv)

/-- Some reports are passed on. -/
lemma Acts.reported {s t : Search L κ} (h : Exploration.Reported A s t) (φ : Phase) :
    Acts A (s, φ) (t, φ) := by
  induction h with
  | refl => exact .refl
  | report _ r ih => exact ih.tail (.report r)

/-- Boundaries are left one after another, up to one with an alternative left, to which the search
turns. -/
lemma Acts.backtrackFrom {path : List PathEntry} : ∀ {s t : Search L κ} {r : Retreat},
    s.path = path → s.terminated = false → s.backtrackFrom A path = (t, r) →
      Acts A (s, .resting) (t, .back r) ∧ (r = .resume → t.opening = .repeating) := by
  induction path with
  | nil =>
    intro s t r _ _ h
    obtain ⟨rfl, rfl⟩ := Prod.mk.inj h
    exact ⟨.refl, by simp⟩
  | cons e rest ih =>
    intro s t r hp ht h
    rw [Search.backtrackFrom] at h
    cases hn : (s.back rest).notify A s.outside none .backtracked with
    | mk u f =>
      have hact : Act A (s, .resting) (u, .told f .resting) := .retreat hp ht hn
      have hpath : u.path = rest := by rw [eq_told A hn]; rfl
      rw [back] at hn
      rw [hn] at h
      cases f with
      | some f =>
        obtain ⟨rfl, rfl⟩ := Prod.mk.inj h
        exact ⟨.single hact, by simp⟩
      | none =>
        simp only at h
        split at h
        · obtain ⟨rfl, rfl⟩ := Prod.mk.inj h
          exact ⟨.single hact, by simp⟩
        · rename_i hterm
          rw [Bool.not_eq_true] at hterm
          cases rest with
          | nil =>
            obtain ⟨rfl, rfl⟩ := Prod.mk.inj h
            exact ⟨.single hact, by simp⟩
          | cons e' below =>
            simp only at h
            split at h
            · rename_i hm
              obtain ⟨rfl, rfl⟩ := Prod.mk.inj h
              refine ⟨.tail (.single hact) (.turn hpath hm hterm), fun _ => ?_⟩
              have hopt : e'.options ≠ 0 := by
                simp only [PathEntry.hasMore, decide_eq_true_eq] at hm
                omega
              simp [opening, replay_eq, PathEntry.choices, PathEntry.nextChoice, hopt]
            · obtain ⟨hacts, hopen⟩ := ih hpath hterm h
              exact ⟨.head hact hacts, hopen⟩

/-- The flag that ends a search is never taken back. -/
lemma terminated_of_act {x y : Search L κ × Phase} (ha : Act A x y) (h : y.1.terminated = false) :
    x.1.terminated = false := by
  have told : ∀ {s t : Search L κ} {scene top n f}, s.notify A scene top n = (t, f) →
      t.terminated = false → s.terminated = false := by
    intro s t scene top n f hn ht
    obtain rfl := eq_told A hn
    exact terminated_of_told A ht
  cases ha with
  | report | start | effect | unmade | quit | turn | leave => exact h
  | note => exact (Bool.or_eq_false_iff.mp h).1
  | begin hn | conclude hn | execute hn | restore _ hn | finish hn => exact told hn h
  | retreat _ ht _ => exact ht
  | reach hadv => exact terminated_of_advance hadv h

end Search

namespace Exploration

/-- The phase a search is in. -/
def phase (s : Search L κ) : Stage σ → Phase
  | .waiting => .waiting
  | .launching => s.opening
  | .executing _ w =>
    if w.failure ≠ none then .broken
    else if w.stopping then .resting
    else if w.replay = [] then .running w.previous
    else .repeating
  | .ended e => .over (e = .completed)

/-- The phase of an execution in which no failure is pending. -/
lemma phase_executing (s : Search L κ) (p : σ) {w : Walk} (hf : w.failure = none) :
    phase s (.executing p w) =
      if w.stopping then .resting
      else if w.replay = [] then .running w.previous
      else .repeating := by
  simp [phase, hf]

/-- An execution is in order as long as no failure is pending. -/
lemma phase_ne_broken (s : Search L κ) (p : σ) {w : Walk} (hf : w.failure = none) :
    phase s (.executing p w) ≠ .broken := by
  rw [phase_executing s p hf]
  split_ifs <;> simp

variable {P : Program σ κ} {A : Audience L} [DecidableEq κ]

open Search

/-- The last notice is told at the end. -/
lemma finish_acts (s : Search L κ) :
    Acts A (s, .resting) ((finish A s : _ × Stage σ).1, phase (finish A s : _ × Stage σ).1
      (finish A s : _ × Stage σ).2) := by
  unfold finish
  cases hn : s.notify A s.outside none .finished with
  | mk t f => cases f <;> exact .single (.finish hn)

/-- After a path the search goes back, or is over. -/
lemma afterPath_acts (s : Search L κ) :
    Acts A (s, .resting) ((afterPath A s : _ × Stage σ).1, phase (afterPath A s : _ × Stage σ).1
      (afterPath A s : _ × Stage σ).2) := by
  have hcount : Act A (s, .resting) ({ s with paths := s.paths + 1 }, .resting) := by
    have h : Act A (s, .resting) _ := .note s.breakReason false (s.paths + 1) s.outside
    simpa only [Bool.or_false] using h
  refine .head hcount ?_
  unfold afterPath
  generalize ({ s with paths := s.paths + 1 } : Search L κ) = s
  simp only
  split
  · exact finish_acts _
  · rename_i hterm
    rw [Bool.not_eq_true] at hterm
    cases hb : s.backtrack A with
    | mk t r =>
      obtain ⟨hacts, hopen⟩ := Acts.backtrackFrom rfl hterm hb
      cases r with
      | failed f => exact hacts.tail .leave
      | done => exact hacts.trans (finish_acts t)
      | resume => simpa [phase, hopen rfl] using hacts

/-- Before an instruction the last one is concluded, and a boundary may be reached. -/
lemma concludeStep_acts {s t : Search L κ} {p : σ} {w : Walk} {i : Instruction} {r : Progress}
    (h : concludeStep P A s p w i = (t, r)) :
    Acts A (s, .running w.previous) (t, .after none r) := by
  unfold concludeStep at h
  cases hp : w.previous with
  | none =>
    rw [hp] at h
    obtain ⟨rfl, rfl⟩ := Prod.mk.inj h
    exact .refl
  | some e =>
    rw [hp] at h
    simp only at h
    cases hn : s.unasked.notify A (P.scene p) w.frame (.executed e (some i)) with
    | mk u f =>
      have hacts : Acts A (s, .running (some e)) (u, .told f (.running none)) :=
        (Acts.unasked s _).tail (.conclude hn)
      rw [Search.unasked] at hn
      rw [hn] at h
      cases f with
      | some f =>
        obtain ⟨rfl, rfl⟩ := Prod.mk.inj h
        exact hacts
      | none =>
        simp only at h
        split at h
        · exact (hacts.trans (Acts.unasked u _)).trans (Acts.reached h none)
        · obtain ⟨rfl, rfl⟩ := Prod.mk.inj h
          exact hacts

/-- Once the last instruction has been concluded, an end state may be reached. -/
lemma reachEnd_acts {s t : Search L κ} {p : σ} {n : Nat} {f : Option Fault}
    (h : reachEnd P A s p n = (t, f)) :
    Acts A (s, .running none) (t, .told f .resting) := by
  have hquit : ∀ {u : Search L κ}, Act A (u, .running none) (u, .resting) :=
    .quit (by simp) (by simp)
  refine (Acts.unasked s _).trans ?_
  unfold reachEnd at h
  split at h
  · obtain ⟨rfl, rfl⟩ := Prod.mk.inj h
    exact .single hquit
  · cases hr : s.unasked.reach A (P.scene p) none .finished
        (P.fingerprint n p none .finished) with
    | mk v r =>
      rw [hr] at h
      have hreach := Acts.reached hr none
      cases r with
      | failed f =>
        obtain ⟨rfl, rfl⟩ := Prod.mk.inj h
        exact hreach
      | halt =>
        obtain ⟨rfl, rfl⟩ := Prod.mk.inj h
        exact hreach
      | onward =>
        obtain ⟨rfl, rfl⟩ := Prod.mk.inj h
        exact hreach.tail hquit

/-- At the end of the program the last instruction is concluded, and an end state is reached. -/
lemma finishPath_acts {s t : Search L κ} {p : σ} {w : Walk} {f : Option Fault}
    (h : finishPath P A s p w = (t, f)) :
    Acts A (s, .running w.previous) (t, .told f .resting) := by
  unfold finishPath at h
  cases hp : w.previous with
  | none =>
    rw [hp] at h
    exact reachEnd_acts h
  | some e =>
    rw [hp] at h
    cases hn : s.unasked.notify A (P.scene p) none (.executed e none) with
    | mk u f' =>
      have hacts : Acts A (s, .running (some e)) (u, .told f' (.running none)) :=
        (Acts.unasked s _).tail (.conclude hn)
      rw [Search.unasked] at hn
      simp only [hn] at h
      cases f' with
      | some f' =>
        obtain ⟨rfl, rfl⟩ := Prod.mk.inj h
        exact hacts
      | none => exact hacts.trans (reachEnd_acts h)

/-- A running execution comes to an instruction. -/
lemma onInstruction_acts {s : Search L κ} {p : σ} {w : Walk} {i : Instruction}
    (ho : w.failure ≠ none → w.stopping = true) (q : σ) :
    Acts A (s, phase s (.executing q w)) ((onInstruction P A s p w i).1,
      phase (onInstruction P A s p w i).1 (onInstruction P A s p w i).2) := by
  unfold onInstruction
  split
  · exact .refl
  · rename_i hw
    have hf : w.failure = none := by
      by_contra hf
      exact hw (ho hf)
    simp only
    split
    · rename_i hr
      have hr : w.replay ≠ [] := by simpa using hr
      simp only [phase, hf, hw, hr]
      exact .refl
    · rename_i hr
      have hr : w.replay = [] := by simpa using hr
      have hφ : phase s (.executing q w) = .running w.previous := by simp [phase, hf, hw, hr]
      rw [hφ]
      cases hc : concludeStep P A s p ⟨w.execution, some i.frame, w.previous, w.stopping, w.failure,
          w.replay, w.replayLength⟩ i with
      | mk t r =>
        have hacts := concludeStep_acts hc
        cases r with
        | failed f => simpa [stopPath, phase] using hacts
        | halt => simpa [stopPath, phase] using hacts
        | onward =>
          simp only
          cases hn : t.notify A (P.scene p) (some i.frame) (.executing i) with
          | mk u f =>
            have hacts := hacts.tail (.execute hn)
            cases f with
            | some f => simpa [stopPath, phase] using hacts
            | none =>
              simp only
              split
              · simpa [stopPath, phase] using hacts.tail (.quit (by simp) (by simp))
              · simpa [phase, hf, hw, hr] using hacts

section Choices

variable {s : Search L κ} {p : σ} {w : Walk} {n : Int}

/-- An execution comes to a choice that it has made before. -/
lemma onChoice_repeated_acts (hn : 1 ≤ n) (hw : w.stopping = false) (hf : w.failure = none)
    {c : Nat} {rest : List Nat} (hr : w.replay = c :: rest) :
    Acts A (s, .repeating) ((onChoice P A s p w n).1,
      phase (onChoice P A s p w n).1 (onChoice P A s p w n).2) := by
  have hpos : ¬ n < 1 := by omega
  simp only [onChoice, hpos, hw, hr, if_false, Bool.false_eq_true]
  split
  · rename_i hrest
    have hrest : rest = [] := by simpa using hrest
    cases hn : s.notify A (P.scene p) w.frame .restored with
    | mk t f =>
      have hact : Act A (s, .repeating) (t, .told f (.running w.previous)) := .restore _ hn
      cases f with
      | some f => simpa [stopPath, phase] using Relation.ReflTransGen.single hact
      | none =>
        simp only
        split
        · have hacts := Relation.ReflTransGen.tail (.single hact) (.quit (by simp) (by simp))
          simpa [stopPath, phase] using hacts
        · simpa [phase, hf, hrest] using Relation.ReflTransGen.single hact
  · rename_i hrest
    have hrest : rest ≠ [] := by simpa using hrest
    simp only [phase, hf, hrest]
    exact .refl

/-- An execution comes to a choice that is new to it. -/
lemma onChoice_new_acts (hn : 1 ≤ n) (hw : w.stopping = false) (hf : w.failure = none)
    (hr : w.replay = []) :
    Acts A (s, .running w.previous) ((onChoice P A s p w n).1,
      phase (onChoice P A s p w n).1 (onChoice P A s p w n).2) := by
  have hpos : ¬ n < 1 := by omega
  simp only [onChoice, hpos, hw, hr, if_false, Bool.false_eq_true]
  cases hreach : s.reach A (P.scene p) w.frame (.choice n.toNat)
      (P.fingerprint w.execution p w.frame (.choice n.toNat)) with
  | mk t r =>
    have hacts := Acts.reached hreach w.previous
    cases r with
    | failed f => simpa [stopPath, phase] using hacts
    | halt => simpa [stopPath, phase] using hacts
    | onward => simpa [phase, hf, hw, hr] using hacts

/-- An execution comes to a choice. -/
lemma onChoice_acts (ho : w.failure ≠ none → w.stopping = true) (q : σ) :
    Acts A (s, phase s (.executing q w)) ((onChoice P A s p w n).1,
      phase (onChoice P A s p w n).1 (onChoice P A s p w n).2) := by
  by_cases hn : n < 1
  · rw [onChoice, if_pos hn]
    exact .refl
  · by_cases hw : w.stopping = true
    · rw [onChoice, if_neg hn, if_pos hw]
      exact .refl
    · have hf : w.failure = none := by
        by_contra hf
        exact hw (ho hf)
      have hw : w.stopping = false := by simpa using hw
      cases hr : w.replay with
      | nil =>
        have hφ : phase s (.executing q w) = .running w.previous := by simp [phase, hf, hw, hr]
        exact hφ ▸ onChoice_new_acts (by omega) hw hf hr
      | cons c rest =>
        have hφ : phase s (.executing q w) = .repeating := by simp [phase, hf, hw, hr]
        exact hφ ▸ onChoice_repeated_acts (by omega) hw hf hr

end Choices

/-- An execution ends. -/
lemma onEnd_acts {s : Search L κ} {p : σ} {w : Walk} {ending : Ending} (q : σ) :
    Acts A (s, phase s (.executing q w)) ((onEnd P A s p w ending).1,
      phase (onEnd P A s p w ending).1 (onEnd P A s p w ending).2) := by
  by_cases hi : ∃ type message, ending = .interrupted type message
  · obtain ⟨type, message, rfl⟩ := hi
    have hact : Act A (s, phase s (.executing q w)) _ :=
      .note s.breakReason false s.paths (P.scene p)
    simp only [Bool.or_false] at hact
    exact .tail (.single hact) .leave
  · obtain ⟨t, hrep, hend⟩ := onEnd_eq (P := P) (A := A) s p w
      fun type message h => hi ⟨type, message, h⟩
    have hacts := Acts.reported hrep (phase s (.executing q w))
    rw [hend, endPath]
    cases hf : w.failure with
    | some f => exact hacts.tail .leave
    | none =>
      have hquit : ∀ u : Search L κ, Act A (u, phase s (.executing q w)) (u, .resting) :=
        fun u => .quit (phase_ne_broken s q hf) (by rw [phase_executing s q hf]; split_ifs <;> simp)
      simp only
      split
      · exact (hacts.tail (hquit t)).trans (afterPath_acts t)
      · rename_i hstop
        simp only [Bool.or_eq_true, decide_eq_true_eq, not_or, Bool.not_eq_true] at hstop
        split
        · exact ((hacts.tail (.report _)).tail (hquit _)).trans (afterPath_acts _)
        · rename_i hr
          have hr : w.replay = [] := by simpa using hr
          have hφ : phase s (.executing q w) = .running w.previous := by
            simp [phase, hf, hstop.1, hr]
          rw [hφ] at hacts ⊢
          cases hfin : finishPath P A t p w with
          | mk u f =>
            have hacts := hacts.trans (finishPath_acts hfin)
            cases f with
            | some f => exact hacts.tail .leave
            | none => exact hacts.trans (afterPath_acts u)

/-- An execution that learns something of its last instruction. -/
lemma effect_acts (s : Search L κ) (p q : σ) {w : Walk} (hw : w.stopping = false) (e : Effect) :
    Acts A (s, phase s (.executing p w))
      (s, phase s (.executing q { w with previous := w.previous.map (·.apply e) })) := by
  by_cases hr : w.failure = none ∧ w.replay = []
  · have hact : Act A (s, .running w.previous) _ := .effect e
    simpa [phase, hr, hw] using Relation.ReflTransGen.single hact
  · have hφ : phase s (.executing q { w with previous := w.previous.map (·.apply e) }) =
        phase s (.executing p w) := by
      by_cases hf : w.failure = none
      · have hrep : w.replay ≠ [] := fun h => hr ⟨hf, h⟩
        rw [phase_executing s p hf]
        simp [phase, hf, hrep]
      · simp [phase, hf]
    rw [hφ]

/-- Every move of a search is a sequence of acts, whatever becomes of it. -/
theorem acts_step {x : Exploration σ L κ} (h : x.stage.Orderly) :
    Acts A (x.search, phase x.search x.stage)
      ((step P A x).search, phase (step P A x).search (step P A x).stage) := by
  obtain ⟨s, stage, printed⟩ := x
  cases stage with
  | waiting =>
    simp only [step, begin]
    cases hn : s.notify A s.outside none .started with
    | mk t f =>
      have hact : Act A (s, .waiting) (t, .told f t.opening) := .begin hn
      cases f with
      | some f => exact .tail (.single hact) .leave
      | none => exact .single hact
  | launching =>
    have hquit : Act A (s, s.opening) (s, .resting) := by
      refine .quit ?_ ?_ <;> · unfold opening; split <;> simp
    simp only [step, launch]
    split
    · exact .head hquit (finish_acts s)
    · refine (Acts.unasked s _).trans ?_
      by_cases hr : s.replay = []
      · have hφ : phase s.unasked (.executing (P.start s.paths) (newWalk s)) = .running none := by
          simp [phase, newWalk, hr]
        have hopen : phase s (.launching : Stage σ) = .fresh := if_pos hr
        rw [hopen, ← unasked, hφ]
        exact .single .start
      · simp only [phase, opening, newWalk, hr]
        exact .refl
  | ended e => exact .refl
  | executing p w =>
    simp only [step]
    cases hp : P.next p with
    | internal q => exact .refl
    | print text q => exact .refl
    | terminate q =>
      have hact : Act A (s, phase s (.executing p w)) _ :=
        .note s.breakReason true s.paths s.outside
      simp only [Bool.or_true] at hact
      exact .single hact
    | effect e q =>
      simp only
      split
      · exact .refl
      · rename_i hw
        exact effect_acts s p q (by simpa using hw) e
    | instruction i q => exact onInstruction_acts h p
    | choice n q => exact onChoice_acts h p
    | ended ending q => exact onEnd_acts p

/-- A run is a sequence of acts. -/
theorem acts_after {x : Exploration σ L κ} (h : x.stage.Orderly) (n : Nat) :
    Acts A (x.search, phase x.search x.stage)
      ((after P A n x).search, phase (after P A n x).search (after P A n x).stage) := by
  induction n with
  | zero => exact .refl
  | succ n ih =>
    rw [after_succ]
    exact ih.trans (acts_step (orderly_after h n))

/-- What holds of a search before its first move, and is kept by every act, holds ever after. -/
theorem invariant_after {I : Search L κ × Phase → Prop} {x : Exploration σ L κ}
    (ho : x.stage.Orderly) (hI : I (x.search, phase x.search x.stage))
    (hact : ∀ {y z : Search L κ × Phase}, Act A y z → I y → I z) (n : Nat) :
    I ((after P A n x).search, phase (after P A n x).search (after P A n x).stage) := by
  have keep : ∀ {y z : Search L κ × Phase}, Acts A y z → I y → I z := fun hacts hy => by
    induction hacts with
    | refl => exact hy
    | tail _ ha ih => exact hact ha ih
  exact keep (acts_after ho n) hI

/-- A search that has not been ended has not been ended before. -/
lemma terminated_of_le {x : Exploration σ L κ} (ho : x.stage.Orderly) {m n : Nat} (hmn : m ≤ n)
    (h : (after P A n x).search.terminated = false) :
    (after P A m x).search.terminated = false := by
  obtain ⟨k, rfl⟩ := Nat.exists_eq_add_of_le hmn
  rw [Nat.add_comm, after_add] at h
  exact invariant_after (I := fun y => y.1.terminated = false →
    (after P A m x).search.terminated = false) (orderly_after ho m) id
    (fun ha hy hz => hy (terminated_of_act ha hz)) k h

/-- What holds of the listeners before the first move, and is kept by whatever they hear and by
every report, holds ever after. -/
theorem listeners_after {J : L → Prop} {x : Exploration σ L κ} (ho : x.stage.Orderly)
    (hJ : J x.search.listeners) (hhear : ∀ {l} view n, J l → J (A.hear l view n).1)
    (hreport : ∀ {l} r, J l → J (A.report l r)) (n : Nat) :
    J (after P A n x).search.listeners := by
  refine invariant_after (I := fun y => J y.1.listeners) (P := P) ho hJ (fun ha hy => ?_) n
  have told : ∀ {s t : Search L κ} {scene top n f}, s.notify A scene top n = (t, f) →
      J s.listeners → J t.listeners := by
    intro s t scene top n f hn hs
    obtain rfl := (Prod.mk.inj hn).1
    exact hhear _ _ hs
  cases ha with
  | report r => exact hreport r hy
  | note | start | effect | unmade | quit | turn | leave => exact hy
  | begin hn | conclude hn | execute hn | restore _ hn | finish hn => exact told hn hy
  | retreat _ _ hn => exact told hn hy
  | @reach s t scene top b key previous r hadv =>
    have hentered : J (s.entered A scene top b key).listeners :=
      hhear _ _ (by rw [enter_eq]; exact hy)
    rcases advance_eq hadv with ⟨rfl, -⟩ | ⟨limit, flag, -, -, rfl⟩
    · exact hentered
    · exact hhear _ _ hentered

end Exploration

end StateAtlas
