import StateAtlas.Proofs.Search.Turn

set_option autoImplicit false

/-!
# What the moves of a search say

The operations of a search do the same to its path and say the same whatever becomes of them: even
if a listener fails or the search is ended in the middle, what has been announced has been
announced. The laws here hold of all searches, not only of undisturbed ones.

## Main definitions

* `StateAtlas.Exploration.Arrives` — a move is about to announce a boundary.
* `StateAtlas.Exploration.Speaks` — what a move says.

## Main results

* `StateAtlas.Search.advance_path`, `StateAtlas.Search.advance_said` — the boundary comes on top of
  the path, and its announcement comes first.
* `StateAtlas.Exploration.speaks_step` — every move says something of one of three kinds.
-/

namespace StateAtlas

variable {σ L κ : Type}

namespace Search

variable {A : Audience L} [DecidableEq κ] {s t : Search L κ} {scene : Scene}
  {top : Option FrameId} {b : Boundary} {key : κ} {r : Progress}

/-- The search after a boundary has been announced and one of the limits with it. -/
def limitedBy (A : Audience L) (s : Search L κ) (scene : Scene) (top : Option FrameId)
    (b : Boundary) (key : κ) (limit : String) : Search L κ :=
  { s.entered A scene top b key with constraint := some limit }.told A scene top .constraintHit

/-- What becomes of a search that reaches a boundary: the boundary is announced and, unless the
search is ended then, possibly a limit, which may end it. -/
lemma advance_eq (h : s.advance A scene top b key = (t, r)) :
    (t = s.entered A scene top b key ∧ (r = .onward → t.terminated = false)) ∨
      ∃ limit flag, r ≠ .onward ∧ (s.entered A scene top b key).terminated = false ∧
        t = { s.limitedBy A scene top b key limit with
          terminated := (s.limitedBy A scene top b key limit).terminated || flag } := by
  unfold advance at h
  cases hn : (s.enter b key).notify A scene top .advanced with
  | mk u f =>
    obtain rfl : u = s.entered A scene top b key := eq_told A hn
    rw [hn] at h
    have limited : ∀ limit {v : Search L κ} {f : Option Fault},
        (s.entered A scene top b key).hitConstraint A scene top limit = (v, f) →
          v = s.limitedBy A scene top b key limit := fun limit v f hv => eq_told A hv
    cases f with
    | some f =>
      obtain ⟨rfl, rfl⟩ := Prod.mk.inj h
      exact .inl ⟨rfl, by simp⟩
    | none =>
      simp only at h
      split at h
      · obtain ⟨rfl, rfl⟩ := Prod.mk.inj h
        exact .inl ⟨rfl, by simp⟩
      · rename_i hgo
        simp only [Bool.or_eq_true, not_or, Bool.not_eq_true] at hgo
        have hterm : (s.entered A scene top b key).terminated = false := hgo.1.1
        split at h
        · cases hv : (s.entered A scene top b key).hitConstraint A scene top "states" with
          | mk v f =>
            obtain rfl := limited _ hv
            rw [hv] at h
            cases f with
            | some f =>
              obtain ⟨rfl, rfl⟩ := Prod.mk.inj h
              exact .inr ⟨"states", false, by simp, hterm, by simp⟩
            | none =>
              obtain ⟨rfl, rfl⟩ := Prod.mk.inj h
              exact .inr ⟨"states", true, by simp, hterm, by simp⟩
        · split at h
          · cases hv : (s.entered A scene top b key).hitConstraint A scene top "depth" with
            | mk v f =>
              obtain rfl := limited _ hv
              rw [hv] at h
              refine .inr ⟨"depth", false, ?_, hterm, ?_⟩
              · cases f <;> · obtain ⟨-, rfl⟩ := Prod.mk.inj h; simp
              · cases f <;> · obtain ⟨rfl, -⟩ := Prod.mk.inj h; simp
          · obtain ⟨rfl, rfl⟩ := Prod.mk.inj h
            exact .inl ⟨rfl, fun _ => hterm⟩

/-- A boundary that is reached comes on top of the path. -/
lemma advance_path (h : s.advance A scene top b key = (t, r)) :
    t.path = ⟨s.identify key, b.options, 0⟩ :: s.path := by
  rcases advance_eq h with ⟨rfl, -⟩ | ⟨limit, flag, -, -, rfl⟩
  · exact entered_path A s scene top b key
  · exact entered_path A s scene top b key

/-- A boundary that is reached keeps the flag that ends the search. -/
lemma terminated_of_advance (h : s.advance A scene top b key = (t, r))
    (ht : t.terminated = false) : s.terminated = false := by
  rcases advance_eq h with ⟨rfl, -⟩ | ⟨limit, flag, -, -, rfl⟩
  · exact terminated_of_entered A ht
  · simp only [Bool.or_eq_false_iff] at ht
    exact terminated_of_entered A (terminated_of_told A
      (s := { s.entered A scene top b key with constraint := some limit }) ht.1)

/-- The search goes on from a boundary only if it has not been ended. -/
lemma terminated_of_onward (h : s.advance A scene top b key = (t, .onward)) :
    t.terminated = false := by
  rcases advance_eq h with ⟨-, ht⟩ | ⟨limit, flag, hr, -⟩
  · exact ht rfl
  · exact absurd rfl hr

/-- A boundary that is reached is announced first, and after it nothing but limits. -/
lemma advance_said {A : Audience L} {s t : Search (L × Log) κ}
    (h : s.advance A.recorded scene top b key = (t, r)) :
    ∃ later, t.listeners.2 = later ++ s.arrival scene top b key :: s.listeners.2 ∧
      ∀ d ∈ later, d.notice = .constraintHit := by
  rcases advance_eq h with ⟨rfl, -⟩ | ⟨limit, flag, -, -, rfl⟩
  · exact ⟨[], entered_log A scene top b key s, by simp⟩
  · have hlog : (s.limitedBy A.recorded scene top b key limit).listeners.2 =
        [⟨({ s.entered A.recorded scene top b key with constraint := some limit } :
          Search (L × Log) κ).view scene top, .constraintHit⟩] ++
            s.arrival scene top b key :: s.listeners.2 := by
      rw [limitedBy, told_log, entered_log]
      rfl
    exact ⟨_, hlog, by simp⟩

end Search

namespace Exploration

variable {P : Program σ κ} {A : Audience L}

/-! ## What is said -/

/-- Deliveries that announce neither a boundary nor a restored choice. -/
def Quiet (new : Log) : Prop := ∀ d ∈ new, d.notice ≠ .advanced ∧ d.notice ≠ .restored

lemma quiet_announced (s : Search L κ) (scene : Scene) (top : Option FrameId)
    (previous next : Option Instruction) : Quiet (announced s scene top previous next) := by
  intro d hd
  obtain ⟨e, he⟩ := notice_of_announced hd
  simp [he]

lemma Quiet.append {new new' : Log} (h : Quiet new) (h' : Quiet new') : Quiet (new ++ new') := by
  intro d hd
  rcases List.mem_append.mp hd with hd | hd
  · exact h d hd
  · exact h' d hd

/-- The last notice is all that is said at the end. -/
lemma finish_said (s : Search (L × Log) κ) : ∃ new : Log, Quiet new ∧
    (finish A.recorded s : _ × Stage σ).1.listeners.2 = new ++ s.listeners.2 ∧
      ∃ e, (finish A.recorded s : _ × Stage σ).2 = .ended e := by
  refine ⟨[⟨s.view s.outside none, .finished⟩], by simp [Quiet], ?_⟩
  unfold finish
  cases hn : s.notify A.recorded s.outside none .finished with
  | mk t f =>
    obtain rfl : t = s.told A.recorded s.outside none .finished := Search.eq_told _ hn
    cases f <;> exact ⟨rfl, _, rfl⟩

/-- Going back says nothing but that, and at least once if a choice is to be resumed. -/
lemma backtrackFrom_said {path : List PathEntry} : ∀ {s t : Search (L × Log) κ} {r : Retreat},
    s.backtrackFrom A.recorded path = (t, r) →
      ∃ new : Log, (∀ d ∈ new, d.notice = .backtracked) ∧ t.listeners.2 = new ++ s.listeners.2 ∧
        (r = .resume → new ≠ []) := by
  induction path with
  | nil =>
    intro s t r h
    obtain ⟨rfl, rfl⟩ := Prod.mk.inj h
    exact ⟨[], by simp, rfl, by simp⟩
  | cons e rest ih =>
    intro s t r h
    simp only [Search.backtrackFrom] at h
    rw [← Search.back] at h
    cases hn : (s.back rest).notify A.recorded s.outside none .backtracked with
    | mk u f =>
      obtain rfl : u = s.popped A.recorded rest := Search.eq_told _ hn
      rw [hn] at h
      have said : ∀ {v : Search (L × Log) κ}, v.listeners = (s.popped A.recorded rest).listeners →
          ∃ new : Log, (∀ d ∈ new, d.notice = .backtracked) ∧
            v.listeners.2 = new ++ s.listeners.2 ∧ (r = .resume → new ≠ []) := fun hv =>
        ⟨[⟨(s.back rest).view s.outside none, .backtracked⟩], by simp,
          by rw [hv, Search.popped_log, List.singleton_append], by simp⟩
      cases f with
      | some f =>
        obtain ⟨rfl, -⟩ := Prod.mk.inj h
        exact said rfl
      | none =>
        simp only at h
        split at h
        · obtain ⟨rfl, -⟩ := Prod.mk.inj h
          exact said rfl
        · cases rest with
          | nil =>
            obtain ⟨rfl, -⟩ := Prod.mk.inj h
            exact said rfl
          | cons e' below =>
            simp only at h
            split at h
            · obtain ⟨rfl, -⟩ := Prod.mk.inj h
              exact said rfl
            · obtain ⟨new, hnew, hlog, hr⟩ := ih h
              refine ⟨new ++ [⟨(s.back (e' :: below)).view s.outside none, .backtracked⟩], ?_,
                by rw [hlog, Search.popped_log, List.append_assoc, List.singleton_append],
                by simp⟩
              intro d hd
              rcases List.mem_append.mp hd with hd | hd
              · exact hnew d hd
              · rw [List.mem_singleton.mp hd]

/-- After a path nothing is said but retreats and the end, and a retreat comes last if a choice is
to be resumed. -/
lemma afterPath_said (s : Search (L × Log) κ) : ∃ new : Log, Quiet new ∧
    (afterPath A.recorded s : _ × Stage σ).1.listeners.2 = new ++ s.listeners.2 ∧
      ((∃ e, (afterPath A.recorded s : _ × Stage σ).2 = .ended e) ∨
        (afterPath A.recorded s : _ × Stage σ).2 = .launching ∧
          ∃ d earlier, new = d :: earlier ∧ d.notice = .backtracked) := by
  simp only [afterPath]
  split
  · obtain ⟨new, hnew, hlog, e, he⟩ := finish_said (σ := σ) (A := A)
      ({ s with paths := s.paths + 1 } : Search (L × Log) κ)
    exact ⟨new, hnew, hlog, .inl ⟨e, he⟩⟩
  · cases hb : ({ s with paths := s.paths + 1 } : Search (L × Log) κ).backtrack A.recorded with
    | mk t r =>
      obtain ⟨new, hnew, hlog, hr⟩ := backtrackFrom_said hb
      have hquiet : Quiet new := fun d hd => by simp [hnew d hd]
      cases r with
      | failed f => exact ⟨new, hquiet, hlog, .inl ⟨_, rfl⟩⟩
      | done =>
        obtain ⟨new', hnew', hlog', e, he⟩ := finish_said (σ := σ) (A := A) t
        exact ⟨new' ++ new, hnew'.append hquiet, by
          rw [List.append_assoc, ← hlog]; exact hlog', .inl ⟨e, he⟩⟩
      | resume =>
        obtain ⟨d, earlier, rfl⟩ := List.exists_cons_of_ne_nil (hr rfl)
        exact ⟨_, hquiet, hlog, .inr ⟨rfl, d, earlier, rfl, hnew d List.mem_cons_self⟩⟩

variable (P) in
/-- An execution is about to announce a boundary: at a configuration, with a frame on top, after
having announced the last instruction if it has not been announced yet. -/
inductive Arrives (s : Search L κ) (p : σ) (w : Walk) : σ → Option FrameId → Boundary → Log → Prop
  | choice {n : Int} {q : σ} (h : P.next p = .choice n q) (hn : 1 ≤ n) :
      Arrives s p w q w.frame (.choice n.toNat) []
  | requested {i : Instruction} {q : σ} (h : P.next p = .instruction i q)
      (hp : w.previous ≠ none) :
      Arrives s p w q (some i.frame) .requested
        (announced s (P.scene q) (some i.frame) w.previous (some i))
  | finished {ending : Ending} {q : σ} (h : P.next p = .ended ending q) (he : ending ≠ .stopped)
      (hi : ∀ type message, ending ≠ .interrupted type message) :
      Arrives s p w q none .finished (announced s (P.scene q) none w.previous none)

/-- Nothing of importance is said before a boundary. -/
lemma Arrives.quiet {s : Search L κ} {p q : σ} {w : Walk} {top : Option FrameId} {b : Boundary}
    {before : Log} (h : Arrives P s p w q top b before) : Quiet before := by
  cases h with
  | choice => simp [Quiet]
  | requested => exact quiet_announced _ _ _ _ _
  | finished => exact quiet_announced _ _ _ _ _

variable [DecidableEq κ]

variable (P) in
/-- What a move says: nothing of importance, or that a choice has been restored, or that a
boundary has been reached. -/
inductive Speaks (s : Search L κ) : Stage σ → Log → Prop
  | quiet {stage : Stage σ} {new : Log} (h : Quiet new) : Speaks s stage new
  | restored {p q : σ} {w : Walk} {n : Int} {c : Nat} (hw : w.stopping = false)
      (hr : w.replay = [c]) (h : P.next p = .choice n q) (hn : 1 ≤ n) :
      Speaks s (.executing p w) [⟨s.view (P.scene q) w.frame, .restored⟩]
  | boundary {p q : σ} {w : Walk} {top : Option FrameId} {b : Boundary} {before later : Log} {k : κ}
      (hw : w.stopping = false) (hr : w.replay = []) (h : Arrives P s p w q top b before)
      (hk : P.fingerprint w.execution q top b = .ok k) (hl : Quiet later) :
      Speaks s (.executing p w) (later ++ s.arrival (P.scene q) top b k :: before)

/-- A boundary is announced in the same way after the last instruction has been announced. -/
lemma arrival_concluded (s : Search L κ) (scene : Scene) (top : Option FrameId)
    (previous next : Option Instruction) (scene' : Scene) (top' : Option FrameId) (b : Boundary)
    (key : κ) :
    (concluded A s scene top previous next).unasked.arrival scene' top' b key =
      s.arrival scene' top' b key := by
  cases previous <;> simp only [Search.arrival, Search.enter_eq] <;> rfl

/-! ## What a move says -/

/-- Before an instruction the last one is announced, and nothing else happens, or a boundary is
reached. -/
lemma concludeStep_eq (s : Search L κ) (p : σ) (w : Walk) (i : Instruction) :
    (∃ r, r ≠ .halt ∧ concludeStep P A s p w i =
        (concluded A s (P.scene p) w.frame w.previous (some i), r)) ∨
      w.previous ≠ none ∧ concludeStep P A s p w i =
        (concluded A s (P.scene p) w.frame w.previous (some i)).unasked.reach A (P.scene p)
          w.frame .requested (P.fingerprint w.execution p w.frame .requested) := by
  unfold concludeStep
  cases w.previous with
  | none => exact .inl ⟨.onward, by simp, rfl⟩
  | some e =>
    cases hn : s.unasked.notify A (P.scene p) w.frame (.executed e (some i)) with
    | mk t f =>
      obtain rfl : t = concluded A s (P.scene p) w.frame (some e) (some i) := Search.eq_told A hn
      rw [Search.unasked] at hn
      simp only [hn]
      cases f with
      | some f => exact .inl ⟨.failed f, by simp, rfl⟩
      | none =>
        simp only
        split
        · exact .inr ⟨by simp, rfl⟩
        · exact .inl ⟨.onward, by simp, rfl⟩

/-- Before an instruction the path stays as it is, or a boundary without alternatives comes on top;
and the flag that ends the search is kept. -/
lemma concludeStep_path {s t : Search L κ} {p : σ} {w : Walk} {i : Instruction} {r : Progress}
    (h : concludeStep P A s p w i = (t, r)) :
    (t.path = s.path ∨ ∃ e : PathEntry, e.options = 0 ∧ t.path = e :: s.path) ∧
      (t.terminated = false → s.terminated = false) := by
  rcases concludeStep_eq (P := P) (A := A) s p w i with ⟨r', -, heq⟩ | ⟨-, heq⟩
  · rw [heq] at h
    obtain ⟨rfl, -⟩ := Prod.mk.inj h
    exact ⟨.inl (concluded_path s _ _ _ _), terminated_of_concluded⟩
  · rw [heq] at h
    rcases Search.reach_cases A h with ⟨f, -, rfl, -⟩ | ⟨k, -, h⟩
    · exact ⟨.inl (concluded_path s _ _ _ _), terminated_of_concluded⟩
    · refine ⟨.inr ⟨_, rfl, by simpa using Search.advance_path h⟩, fun ht => ?_⟩
      have hs := Search.terminated_of_advance h ht
      rw [Search.unasked_terminated] at hs
      exact terminated_of_concluded hs

/-- An execution that is on its way to a choice stays so, in silence, until it has repeated all
choices. -/
def Repeats (w : Walk) (new : Log) (stage : Stage σ) : Prop :=
  ∃ p w', stage = .executing p w' ∧ (w'.stopping = true ∨ w'.replay = [] ∨
    new = [] ∧ w.stopping = false ∧ w.replay ≠ [])

/-- Before an instruction the last one may be announced, then a boundary, then the instruction. -/
lemma concludeStep_said {s t : Search (L × Log) κ} {p q : σ} {w : Walk} {i : Instruction}
    {r : Progress} (hp : P.next p = .instruction i q) (hf : w.frame = some i.frame)
    (h : concludeStep P A.recorded s q w i = (t, r)) (w' : Walk) (hw : w'.previous = w.previous) :
    ∃ new : Log, t.listeners.2 = new ++ s.listeners.2 ∧ (Quiet new ∨
      ∃ before later k, Arrives P s p w' q (some i.frame) .requested before ∧
        P.fingerprint w.execution q (some i.frame) .requested = .ok k ∧ Quiet later ∧
        new = later ++ s.arrival (P.scene q) (some i.frame) .requested k :: before) := by
  rcases concludeStep_eq (P := P) (A := A.recorded) s q w i with ⟨r', -, heq⟩ | ⟨hne, heq⟩
  · rw [heq] at h
    obtain ⟨rfl, -⟩ := Prod.mk.inj h
    exact ⟨_, concluded_log _ _ _ _ _, .inl (quiet_announced _ _ _ _ _)⟩
  · rw [heq] at h
    rcases Search.reach_cases _ h with ⟨f, -, rfl, -⟩ | ⟨k, hk, h⟩
    · exact ⟨_, concluded_log _ _ _ _ _, .inl (quiet_announced _ _ _ _ _)⟩
    · obtain ⟨later, hlog, hlater⟩ := Search.advance_said h
      rw [arrival_concluded, Search.unasked_listeners, concluded_log] at hlog
      rw [hf] at hlog hk
      refine ⟨later ++ _ :: announced s (P.scene q) (some i.frame) w.previous (some i),
        by rw [hlog, List.append_assoc, List.cons_append], .inr ⟨_, later, k, ?_, hk, ?_, rfl⟩⟩
      · exact hw ▸ .requested hp (hw ▸ hne)
      · exact fun d hd => by simp [hlater d hd]

/-- What is said before an instruction. -/
lemma onInstruction_said {s : Search (L × Log) κ} {p q : σ} {w : Walk} {i : Instruction}
    (hp : P.next p = .instruction i q) :
    ∃ new : Log, (onInstruction P A.recorded s q w i).1.listeners.2 = new ++ s.listeners.2 ∧
      Speaks P s (.executing p w) new ∧ Repeats w new (onInstruction P A.recorded s q w i).2 := by
  unfold onInstruction
  cases hw : w.stopping with
  | true => exact ⟨[], rfl, .quiet (by simp [Quiet]), _, w, rfl, .inl hw⟩
  | false =>
    simp only [Bool.false_eq_true, if_false]
    split
    · rename_i hr
      have hr : w.replay ≠ [] := by simpa using hr
      exact ⟨[], rfl, .quiet (by simp [Quiet]), _, _, rfl, .inr (.inr ⟨rfl, hw, hr⟩)⟩
    · rename_i hr
      have hr : w.replay = [] := by simpa using hr
      cases hc : concludeStep P A.recorded s q ⟨w.execution, some i.frame, w.previous, false,
          w.failure, w.replay, w.replayLength⟩ i with
      | mk t r =>
        obtain ⟨new, hlog, hnew⟩ := concludeStep_said hp rfl hc w rfl
        have speaks : ∀ extra : Log, Quiet extra → Speaks P s (.executing p w) (extra ++ new) := by
          intro extra hextra
          rcases hnew with hnew | ⟨before, later, k, harr, hk, hlater, rfl⟩
          · exact .quiet (hextra.append hnew)
          · rw [← List.append_assoc]
            exact .boundary hw hr harr hk (hextra.append hlater)
        cases r with
        | failed f => exact ⟨new, hlog, speaks [] (by simp [Quiet]), _, _, rfl, .inl rfl⟩
        | halt => exact ⟨new, hlog, speaks [] (by simp [Quiet]), _, _, rfl, .inl rfl⟩
        | onward =>
          simp only
          cases hn : t.notify A.recorded (P.scene q) (some i.frame) (.executing i) with
          | mk u f =>
            obtain rfl : u = t.told A.recorded (P.scene q) (some i.frame) (.executing i) :=
              Search.eq_told _ hn
            have hspeaks := speaks [⟨t.view (P.scene q) (some i.frame), .executing i⟩] (by simp [Quiet])
            refine ⟨_, ?_, hspeaks, ?_⟩
            · cases f with
              | some f => simp [stopPath, hlog]
              | none =>
                simp only
                split <;> simp [stopPath, hlog]
            · cases f with
              | some f => exact ⟨_, _, rfl, .inl rfl⟩
              | none =>
                simp only
                split
                · exact ⟨_, _, rfl, .inl rfl⟩
                · exact ⟨_, _, rfl, .inr (.inl hr)⟩

section Choices

variable {s : Search (L × Log) κ} {p q : σ} {w : Walk} {n : Int}

/-- What is said at a choice that has not been made before. -/
lemma onChoice_new_said (hp : P.next p = .choice n q) (hn : 1 ≤ n) (hw : w.stopping = false)
    (hr : w.replay = []) :
    ∃ new : Log, (onChoice P A.recorded s q w n).1.listeners.2 = new ++ s.listeners.2 ∧
      Speaks P s (.executing p w) new ∧ Repeats w new (onChoice P A.recorded s q w n).2 := by
  have hpos : ¬ n < 1 := by omega
  simp only [onChoice, hpos, hw, hr, if_false, Bool.false_eq_true]
  cases hreach : s.reach A.recorded (P.scene q) w.frame (.choice n.toNat)
      (P.fingerprint w.execution q w.frame (.choice n.toNat)) with
  | mk t r =>
    rcases Search.reach_cases _ hreach with ⟨f, -, rfl, rfl⟩ | ⟨k, hk, hadv⟩
    · exact ⟨[], rfl, .quiet (by simp [Quiet]), _, _, rfl, .inl rfl⟩
    · obtain ⟨later, hlog, hlater⟩ := Search.advance_said hadv
      have hspeaks : Speaks P s (.executing p w)
          (later ++ s.arrival (P.scene q) w.frame (.choice n.toNat) k :: []) :=
        .boundary hw hr (.choice hp hn) hk fun d hd => by simp [hlater d hd]
      refine ⟨_, ?_, hspeaks, ?_⟩
      · cases r <;> simp [stopPath, hlog]
      · cases r with
        | failed f => exact ⟨_, _, rfl, .inl rfl⟩
        | halt => exact ⟨_, _, rfl, .inl rfl⟩
        | onward => exact ⟨_, _, rfl, .inr (.inl hr)⟩

/-- What is said at the last choice that is repeated. -/
lemma onChoice_restored_said (hp : P.next p = .choice n q) (hn : 1 ≤ n) (hw : w.stopping = false)
    {c : Nat} (hr : w.replay = [c]) :
    ∃ new : Log, (onChoice P A.recorded s q w n).1.listeners.2 = new ++ s.listeners.2 ∧
      Speaks P s (.executing p w) new ∧ Repeats w new (onChoice P A.recorded s q w n).2 := by
  have hpos : ¬ n < 1 := by omega
  simp only [onChoice, hpos, hw, hr, if_false, Bool.false_eq_true, List.isEmpty_nil, if_true]
  cases hn' : s.notify A.recorded (P.scene q) w.frame .restored with
  | mk t f =>
    obtain rfl : t = s.told A.recorded (P.scene q) w.frame .restored := Search.eq_told _ hn'
    refine ⟨_, ?_, .restored hw hr hp hn, ?_⟩
    · cases f with
      | some f => simp [stopPath]
      | none =>
        simp only
        split <;> simp [stopPath]
    · cases f with
      | some f => exact ⟨_, _, rfl, .inl rfl⟩
      | none =>
        simp only
        split
        · exact ⟨_, _, rfl, .inl rfl⟩
        · exact ⟨_, _, rfl, .inr (.inl rfl)⟩

/-- What is said at a choice. -/
lemma onChoice_said (hp : P.next p = .choice n q) :
    ∃ new : Log, (onChoice P A.recorded s q w n).1.listeners.2 = new ++ s.listeners.2 ∧
      Speaks P s (.executing p w) new ∧ Repeats w new (onChoice P A.recorded s q w n).2 := by
  by_cases hn : 1 ≤ n
  · cases hw : w.stopping with
    | true =>
      have hpos : ¬ n < 1 := by omega
      simp only [onChoice, hpos, hw, if_false, if_true]
      exact ⟨[], rfl, .quiet (by simp [Quiet]), _, _, rfl, .inl hw⟩
    | false =>
      cases hr : w.replay with
      | nil => exact onChoice_new_said hp hn hw hr
      | cons c later =>
        cases later with
        | nil => exact onChoice_restored_said hp hn hw hr
        | cons c' rest =>
          have hpos : ¬ n < 1 := by omega
          simp only [onChoice, hpos, hw, hr, if_false, Bool.false_eq_true, List.isEmpty_cons]
          exact ⟨[], rfl, .quiet (by simp [Quiet]), _, _, rfl,
            .inr (.inr ⟨rfl, hw, by simp [hr]⟩)⟩
  · have hpos : n < 1 := by omega
    simp only [onChoice, hpos, if_true]
    refine ⟨[], rfl, .quiet (by simp [Quiet]), _, _, rfl, ?_⟩
    by_cases hw : w.stopping = true
    · exact .inl hw
    · by_cases hr : w.replay = []
      · exact .inr (.inl hr)
      · exact .inr (.inr ⟨rfl, by simpa using hw, hr⟩)

end Choices

/-- At the end of the program the last instruction may be announced, and then an end state. -/
lemma finishPath_said {s t : Search (L × Log) κ} {q : σ} {w : Walk} {f : Option Fault}
    (h : finishPath P A.recorded s q w = (t, f)) :
    ∃ new : Log, t.listeners.2 = new ++ s.listeners.2 ∧ (Quiet new ∨ ∃ later k, Quiet later ∧
      P.fingerprint w.execution q none .finished = .ok k ∧
      new = later ++ s.arrival (P.scene q) none .finished k ::
        announced s (P.scene q) none w.previous none) := by
  obtain ⟨f', hf⟩ := finishPath_eq (P := P) (A := A.recorded) s q w
  have hlog := concluded_log (A := A) s (P.scene q) none w.previous none
  have hquiet := quiet_announced s (P.scene q) none w.previous none
  rw [hf] at h
  cases f' with
  | some f' =>
    obtain ⟨rfl, -⟩ := Prod.mk.inj h
    exact ⟨_, hlog, .inl hquiet⟩
  | none =>
    simp only at h
    split at h
    · obtain ⟨rfl, -⟩ := Prod.mk.inj h
      exact ⟨_, hlog, .inl hquiet⟩
    · cases hreach : (concluded A.recorded s (P.scene q) none w.previous none).unasked.reach
          A.recorded (P.scene q) none .finished (P.fingerprint w.execution q none .finished) with
      | mk u r =>
        rw [hreach] at h
        have hu : u = t := by cases r <;> exact (Prod.mk.inj h).1
        subst hu
        rcases Search.reach_cases _ hreach with ⟨f, -, rfl, -⟩ | ⟨k, hk, hadv⟩
        · exact ⟨_, hlog, .inl hquiet⟩
        · obtain ⟨later, hsaid, hlater⟩ := Search.advance_said hadv
          rw [arrival_concluded, Search.unasked_listeners, hlog] at hsaid
          exact ⟨_, by rw [hsaid, ← List.cons_append, ← List.append_assoc],
            .inr ⟨later, k, fun d hd => by simp [hlater d hd], hk, rfl⟩⟩

/-- What is said when an execution has ended. After it the search is over, or a choice is to be
resumed and the last thing said is a retreat. -/
lemma onEnd_said {s : Search (L × Log) κ} {p q : σ} {w : Walk} {ending : Ending}
    (hp : P.next p = .ended ending q) :
    ∃ new : Log, (onEnd P A.recorded s q w ending).1.listeners.2 = new ++ s.listeners.2 ∧
      Speaks P s (.executing p w) new ∧
        ((∃ e, (onEnd P A.recorded s q w ending).2 = .ended e) ∨
          (onEnd P A.recorded s q w ending).2 = .launching ∧
            ∃ d earlier, new = d :: earlier ∧ d.notice = .backtracked) := by
  have quiet : ∀ s' : Search (L × Log) κ, s'.listeners.2 = s.listeners.2 →
      ∃ new : Log, (afterPath A.recorded s' : _ × Stage σ).1.listeners.2 = new ++ s.listeners.2 ∧
        Speaks P s (.executing p w) new ∧
          ((∃ e, (afterPath A.recorded s' : _ × Stage σ).2 = .ended e) ∨
            (afterPath A.recorded s' : _ × Stage σ).2 = .launching ∧
              ∃ d earlier, new = d :: earlier ∧ d.notice = .backtracked) := by
    intro s' hs'
    obtain ⟨new, hnew, hlog, hstage⟩ := afterPath_said (σ := σ) (A := A) s'
    exact ⟨new, hs' ▸ hlog, .quiet hnew, hstage⟩
  by_cases hi : ∃ type message, ending = .interrupted type message
  · obtain ⟨type, message, rfl⟩ := hi
    exact ⟨[], rfl, .quiet (by simp [Quiet]), .inl ⟨_, rfl⟩⟩
  · have hi : ∀ type message, ending ≠ .interrupted type message :=
      fun type message h => hi ⟨type, message, h⟩
    obtain ⟨t, hrep, hend⟩ := onEnd_eq (P := P) (A := A.recorded) s q w hi
    obtain ⟨r, rfl⟩ := hrep.eq_recorded
    rw [hend, endPath]
    split
    · exact ⟨[], rfl, .quiet (by simp [Quiet]), .inl ⟨_, rfl⟩⟩
    · split
      · exact quiet _ rfl
      · rename_i hstop
        simp only [Bool.or_eq_true, decide_eq_true_eq, not_or, Bool.not_eq_true] at hstop
        split
        · exact quiet _ rfl
        · rename_i hr
          have hr : w.replay = [] := by simpa using hr
          cases hfin : finishPath P A.recorded { s with listeners := (r, s.listeners.2) } q w with
          | mk t f =>
            obtain ⟨new, hlog, hnew⟩ := finishPath_said hfin
            have speaks : ∀ extra : Log, Quiet extra →
                Speaks P s (.executing p w) (extra ++ new) := by
              intro extra hextra
              rcases hnew with hnew | ⟨later, k, hlater, hk, rfl⟩
              · exact .quiet (hextra.append hnew)
              · have harr : ({ s with listeners := (r, s.listeners.2) } : Search (L × Log) κ).arrival
                    (P.scene q) none .finished k = s.arrival (P.scene q) none .finished k := by
                  simp only [Search.arrival, Search.enter_eq]
                  rfl
                rw [← List.append_assoc, harr]
                exact .boundary hstop.1 hr (.finished hp hstop.2 hi) hk (hextra.append hlater)
            cases f with
            | some f => exact ⟨new, hlog, speaks [] (by simp [Quiet]), .inl ⟨_, rfl⟩⟩
            | none =>
              obtain ⟨new', hnew', hlog', hstage⟩ := afterPath_said (σ := σ) (A := A) t
              refine ⟨new' ++ new, by rw [List.append_assoc, ← hlog]; exact hlog',
                speaks new' hnew', ?_⟩
              rcases hstage with hstage | ⟨hst, d, earlier, hd, hb⟩
              · exact .inl hstage
              · exact .inr ⟨hst, d, earlier ++ new, by rw [hd, List.cons_append], hb⟩

/-- Every move says something of one of three kinds, whatever becomes of the search. -/
theorem speaks_step (x : Exploration σ (L × Log) κ) :
    ∃ new : Log, (step P A.recorded x).search.listeners.2 = new ++ x.search.listeners.2 ∧
      Speaks P x.search x.stage new := by
  obtain ⟨s, stage, printed⟩ := x
  cases stage with
  | waiting =>
    refine ⟨[⟨s.view s.outside none, .started⟩], ?_, .quiet (by simp [Quiet])⟩
    simp only [step, begin]
    cases hn : s.notify A.recorded s.outside none .started with
    | mk t f =>
      obtain rfl : t = s.told A.recorded s.outside none .started := Search.eq_told _ hn
      cases f <;> rfl
  | launching =>
    simp only [step, launch]
    split
    · obtain ⟨new, hnew, hlog, -⟩ := finish_said (σ := σ) (A := A) s
      exact ⟨new, hlog, .quiet hnew⟩
    · exact ⟨[], rfl, .quiet (by simp [Quiet])⟩
  | ended e => exact ⟨[], rfl, .quiet (by simp [Quiet])⟩
  | executing p w =>
    cases hp : P.next p with
    | instruction i q =>
      obtain ⟨new, hlog, hnew, -⟩ := onInstruction_said (A := A) (s := s) (w := w) hp
      exact ⟨new, by simpa [step, hp] using hlog, hnew⟩
    | choice n q =>
      obtain ⟨new, hlog, hnew, -⟩ := onChoice_said (A := A) (s := s) (w := w) hp
      exact ⟨new, by simpa [step, hp] using hlog, hnew⟩
    | ended ending q =>
      obtain ⟨new, hlog, hnew, -⟩ := onEnd_said (A := A) (s := s) (w := w) hp
      exact ⟨new, by simpa [step, hp] using hlog, hnew⟩
    | effect e q =>
      refine ⟨[], ?_, .quiet (by simp [Quiet])⟩
      simp only [step, hp]
      split <;> rfl
    | _ => exact ⟨[], by simp [step, hp], .quiet (by simp [Quiet])⟩

end Exploration

end StateAtlas
