import Mathlib.Data.List.Chain
import StateAtlas.Proofs.Search.Stopping
import StateAtlas.Proofs.Search.Termination

set_option autoImplicit false

/-!
# What comes next

What a move of a search delivers hangs together: nothing comes after the failure of a listener, and
the conclusion of an instruction is followed, within the same move, by the boundary that a listener
wants or by the next instruction, and at the end of the program by the end state, or by the last
notice if the search has been ended. Only if a boundary has no fingerprint nothing follows, and that
surfaces like a failure.

## Main definitions

* `StateAtlas.Transcript.Sequel` — what may come right after a delivery.
* `StateAtlas.Transcript.Utterance` — deliveries that hang together.
* `StateAtlas.Transcript.Owes` — a boundary has to follow a delivery.
* `StateAtlas.Exploration.Unmade` — the next move reaches a boundary without a fingerprint.
* `StateAtlas.Stage.fault?` — the failure that a search is about to surface, or has surfaced.

## Main results

* `StateAtlas.Exploration.utterance_step` — what a move delivers hangs together.
* `StateAtlas.Exploration.surfaces_after` — at most the last delivery of a run has failed, and its
  failure is the one that surfaces, if it is not that of a fingerprint.
* `StateAtlas.Exploration.exists_sequel` — what comes right after the conclusion of an instruction.

## Design

As before the last delivery comes first. Whether the search has been ended is said of the moment
before a move, so that an end that comes later, with the last notice, say, does not count.
-/

namespace StateAtlas

variable {σ L κ : Type}

/-- The failure that a search is about to surface, or has surfaced. -/
def Stage.fault? : Stage σ → Option Fault
  | .executing _ w => w.failure
  | .ended (.failed f) => some f
  | _ => none

/-- The failure that comes of reaching a boundary. -/
def Progress.fault? : Progress → Option Fault
  | .failed f => some f
  | _ => none

/-- The failure that comes of going back. -/
def Retreat.fault? : Retreat → Option Fault
  | .failed f => some f
  | _ => none

namespace Transcript

/-- What may come right after a delivery: nothing after a failure; after the conclusion of an
instruction a boundary or the next instruction, as the listeners want, and after that of the last
one the end state, or the last notice if the search has been ended. -/
def Sequel (shut : Bool) (d : Delivery) (e : Delivery × Reaction) : Prop :=
  e.2.failure = none ∧
    match e.1.notice with
    | .executed _ (some i) =>
      if e.2.breakReason.isSome then d.notice = .advanced else d.notice = .executing i
    | .executed _ none =>
      if shut || e.2.terminate then d.notice = .finished
      else d.notice = .advanced ∧ d.view.isEnd = true
    | _ => True

/-- A boundary has to follow the conclusion of an instruction: a listener wants one, or the program
has ended and the search has not. -/
def Owes (shut : Bool) (e : Delivery × Reaction) : Prop :=
  e.2.failure = none ∧
    match e.1.notice with
    | .executed _ (some _) => e.2.breakReason.isSome = true
    | .executed _ none => (shut || e.2.terminate) = false
    | _ => False

/-- Every delivery may come after the one before it. -/
def Connected (shut : Bool) (new : Transcript) : Prop :=
  new.IsChain fun d e => Sequel shut d.1 e

/-- A delivery may come next. -/
def Awaits (shut : Bool) (new : Transcript) (d : Delivery) : Prop :=
  ∀ e ∈ new.head?, Sequel shut d e

/-- The failure of the last delivery. -/
def fault? (new : Transcript) : Option Fault := new.head?.bind (·.2.failure)

/-- The last delivery is no conclusion of an instruction that something has to follow. -/
def Settled (new : Transcript) : Prop :=
  ∀ e ∈ new.head?, e.2.failure = none → ∀ i next, e.1.notice ≠ .executed i next

/-- Deliveries that hang together, with the failure of the last one. -/
structure Utterance (shut : Bool) (new : Transcript) (f : Option Fault) : Prop where
  connected : Connected shut new
  fault : fault? new = f
  settled : Settled new

variable {shut : Bool} {new later : Transcript} {f : Option Fault}

lemma utterance_nil (shut : Bool) : Utterance shut [] none :=
  ⟨List.isChain_nil, rfl, by simp [Settled]⟩

/-- A notice that concludes no instruction. -/
lemma utterance_single (shut : Bool) {d : Delivery} (hd : ∀ i next, d.notice ≠ .executed i next)
    (r : Reaction) : Utterance shut [(d, r)] r.failure :=
  ⟨List.isChain_singleton _, rfl, by simp [Settled, hd]⟩

/-- After deliveries that hang together anything may come, unless the last one has failed. -/
lemma Utterance.awaits (h : Utterance shut new none) (d : Delivery) : Awaits shut new d := by
  intro e he
  have hf : e.2.failure = none := by
    have hfault := h.fault
    rw [Option.mem_def] at he
    simpa [fault?, he] using hfault
  refine ⟨hf, ?_⟩
  have hn := h.settled e he hf
  split
  · rename_i heq
    exact absurd heq (hn _ _)
  · rename_i heq
    exact absurd heq (hn _ _)
  · trivial

/-- A notice to which a listener failed. -/
lemma utterance_failed (shut : Bool) {d : Delivery} {r : Reaction} {f : Fault}
    (hr : r.failure = some f) : Utterance shut [(d, r)] (some f) :=
  ⟨List.isChain_singleton _, hr, by simp [Settled, hr]⟩

/-- Deliveries come after others, the last one of which may be the conclusion of an instruction that
the first of them has to follow. -/
lemma Utterance.append {rest : Transcript} {d : Delivery} {r : Reaction}
    (h : Utterance shut (rest ++ [(d, r)]) f) (hnew : Connected shut new) (hd : Awaits shut new d) :
    Utterance shut (rest ++ [(d, r)] ++ new) f := by
  have hhead : (rest ++ [(d, r)] ++ new).head? = (rest ++ [(d, r)]).head? := by
    rw [List.head?_append_of_ne_nil _ (by simp)]
  refine ⟨List.IsChain.append h.connected hnew fun x hx y hy => ?_, ?_, ?_⟩
  · obtain rfl : (d, r) = x := by simpa using hx
    exact hd y hy
  · rw [fault?, hhead]
    exact h.fault
  · rw [Settled, hhead]
    exact h.settled

/-- Deliveries that come after a single one. -/
lemma Utterance.concat {rest : Transcript} {d : Delivery} {r : Reaction} {e : Delivery × Reaction}
    (h : Utterance shut (rest ++ [(d, r)]) f) (hd : Sequel shut d e) :
    Utterance shut (rest ++ [(d, r)] ++ [e]) f :=
  h.append (List.isChain_singleton e) (by simpa [Awaits] using hd)

/-- A single delivery that comes after another one. -/
lemma Utterance.sequel {d : Delivery} {r : Reaction} {e : Delivery × Reaction}
    (h : Utterance shut [(d, r)] f) (hd : Sequel shut d e) : Utterance shut [(d, r), e] f := by
  rw [← List.nil_append [(d, r)]] at h
  exact h.concat hd

/-- Deliveries that hang together one after the other. -/
lemma Utterance.trans (h : Utterance shut new none) (h' : Utterance shut later f) :
    Utterance shut (later ++ new) f := by
  rcases List.eq_nil_or_concat' later with rfl | ⟨rest, ⟨d, r⟩, rfl⟩
  · obtain rfl : none = f := h'.fault
    exact h
  · exact h'.append h.connected (h.awaits d)

/-- Of deliveries that hang together at most the last one has failed. -/
lemma Connected.clean : ∀ {new : Transcript}, Connected shut new →
    ∀ e ∈ new.tail, e.2.failure = none
  | [], _ => by simp
  | [_], _ => by simp
  | _ :: e :: rest, h => by
    obtain ⟨he, hrest⟩ := List.isChain_cons_cons.mp h
    exact List.forall_mem_cons.mpr ⟨he.1, Connected.clean hrest⟩

/-- If all deliveries but the last one have not failed, and it has not failed either, none has. -/
lemma clean_of_fault? {T : Transcript} (h : ∀ e ∈ T.tail, e.2.failure = none)
    (hf : fault? T = none) : ∀ e ∈ T, e.2.failure = none := by
  cases T with
  | nil => simp
  | cons e T => exact List.forall_mem_cons.mpr ⟨hf, h⟩

/-- If no delivery has failed, the last one has not. -/
lemma fault?_of_clean {T : Transcript} (h : ∀ e ∈ T, e.2.failure = none) : fault? T = none := by
  cases T with
  | nil => rfl
  | cons e T => exact h e List.mem_cons_self

/-- Deliveries that hang together come after others none of which has failed. -/
lemma Utterance.clean {T : Transcript} (h : Utterance shut new f)
    (hT : ∀ e ∈ T, e.2.failure = none) : ∀ e ∈ (new ++ T).tail, e.2.failure = none := by
  cases new with
  | nil => exact fun e he => hT e (List.mem_of_mem_tail he)
  | cons e new =>
    intro e he
    rcases List.mem_append.mp he with he | he
    · exact h.connected.clean e he
    · exact hT e he

/-- The failure of the last delivery, if none of those before has failed. -/
lemma Utterance.fault?_append {T : Transcript} (h : Utterance shut new f) (hT : fault? T = none) :
    fault? (new ++ T) = f := by
  cases new with
  | nil => exact hT.trans h.fault
  | cons e new => exact h.fault

/-- What comes right after one of several deliveries that hang together. -/
lemma Connected.sequel {rest earlier : Transcript} {e e' : Delivery × Reaction}
    (h : Connected shut (rest ++ e' :: e :: earlier)) : Sequel shut e'.1 e :=
  (List.isChain_cons_cons.mp h.right_of_append).1

end Transcript

open Transcript

namespace Search

variable {A : Audience L} {shut : Bool}

/-- Between two searches some deliveries have been made that hang together. -/
def Says (shut : Bool) (s t : Search (L × Transcript) κ) (f : Option Fault) : Prop :=
  ∃ new, t.listeners.2 = new ++ s.listeners.2 ∧ Utterance shut new f

variable {s t u : Search (L × Transcript) κ} {f : Option Fault}

/-- Between two searches nothing has been delivered, or one delivery that a boundary has to
follow. -/
def Stalls (shut : Bool) (s t : Search (L × Transcript) κ) : Prop :=
  t.listeners.2 = s.listeners.2 ∨ ∃ e, t.listeners.2 = e :: s.listeners.2 ∧ Owes shut e

/-- No delivery fails where a search stalls. -/
lemma Stalls.clean (h : Stalls shut s t) (hs : ∀ e ∈ s.listeners.2, e.2.failure = none) :
    ∀ e ∈ t.listeners.2, e.2.failure = none := by
  rcases h with hT | ⟨e, hT, howes⟩
  · rwa [hT]
  · rw [hT]
    exact List.forall_mem_cons.mpr ⟨howes.1, hs⟩

/-- Nothing is said. -/
lemma Says.of_eq (h : t.listeners.2 = s.listeners.2) : Says shut s t none :=
  ⟨[], h, utterance_nil shut⟩

lemma Says.trans (h : Says shut s t none) (h' : Says shut t u f) : Says shut s u f := by
  obtain ⟨new, ht, hnew⟩ := h
  obtain ⟨later, hu, hlater⟩ := h'
  exact ⟨later ++ new, by rw [hu, ht, List.append_assoc], hnew.trans hlater⟩

/-- What a search keeps for itself beside its listeners does not matter. -/
lemma Says.congr {s' t' : Search (L × Transcript) κ} (h : Says shut s t f)
    (hs : s'.listeners.2 = s.listeners.2) (ht : t'.listeners.2 = t.listeners.2) :
    Says shut s' t' f := by
  obtain ⟨new, heq, hnew⟩ := h
  exact ⟨new, by rw [ht, heq, hs], hnew⟩

/-- What a notice adds to the transcript. -/
lemma notify_transcript {scene : Scene} {top : Option FrameId} {n : Notice}
    (h : s.notify A.transcribed scene top n = (t, f)) :
    ∃ r : Reaction, t.listeners.2 = (⟨s.view scene top, n⟩, r) :: s.listeners.2 ∧ r.failure = f ∧
      t.terminated = (s.terminated || r.terminate) ∧
      t.breakReason = (r.breakReason <|> s.breakReason) := by
  obtain ⟨rfl, rfl⟩ := Prod.mk.inj h
  exact ⟨_, rfl, rfl, rfl, rfl⟩

/-- A notice is delivered that concludes no instruction. -/
lemma says_notify (shut : Bool) {scene : Scene} {top : Option FrameId} {n : Notice}
    (hn : ∀ i next, n ≠ .executed i next) (h : s.notify A.transcribed scene top n = (t, f)) :
    Says shut s t f := by
  obtain ⟨r, ht, rfl, -⟩ := notify_transcript h
  exact ⟨[_], ht, utterance_single shut hn r⟩

/-- A boundary is announced first, and possibly a limit after it. -/
lemma says_advance [DecidableEq κ] (shut : Bool) {scene : Scene} {top : Option FrameId}
    {b : Boundary} {key : κ} {r : Progress} (h : s.advance A.transcribed scene top b key = (t, r)) :
    ∃ rest x, t.listeners.2 = (rest ++ [(s.arrival scene top b key, x)]) ++ s.listeners.2 ∧
      Utterance shut (rest ++ [(s.arrival scene top b key, x)]) r.fault? := by
  unfold advance at h
  have henter : (s.enter b key).listeners.2 = s.listeners.2 := by rw [enter_eq]
  -- a limit is announced after the boundary
  have limit : ∀ {u v w : Search (L × Transcript) κ} {f : Option Fault} {c : String} {x : Reaction},
      u.listeners.2 = (s.arrival scene top b key, x) :: s.listeners.2 → x.failure = none →
        u.hitConstraint A.transcribed scene top c = (v, f) → w.listeners = v.listeners →
          ∃ rest x, w.listeners.2 = (rest ++ [(s.arrival scene top b key, x)]) ++ s.listeners.2 ∧
            Utterance shut (rest ++ [(s.arrival scene top b key, x)]) f := by
    intro u v w f c x hu hx hv hw
    obtain ⟨new, hv, hnew⟩ := says_notify shut (by simp) hv
    refine ⟨new, x, by rw [hw, hv]; simp [hu], ?_⟩
    exact Utterance.trans (hx ▸ utterance_single shut (by simp [arrival]) x) hnew
  cases hn : (s.enter b key).notify A.transcribed scene top .advanced with
  | mk u f =>
    obtain ⟨x, hu, hx, -⟩ := notify_transcript hn
    rw [henter, ← arrival] at hu
    have alone : Utterance shut [(s.arrival scene top b key, x)] x.failure :=
      utterance_single shut (by simp [arrival]) x
    rw [hn] at h
    cases f with
    | some f =>
      obtain ⟨rfl, rfl⟩ := Prod.mk.inj h
      rw [hx] at alone
      exact ⟨[], x, hu, alone⟩
    | none =>
      rw [hx] at alone
      simp only at h
      split at h
      · obtain ⟨rfl, rfl⟩ := Prod.mk.inj h
        exact ⟨[], x, hu, alone⟩
      · split at h
        · split at h <;>
          · rename_i hv
            obtain ⟨rfl, rfl⟩ := Prod.mk.inj h
            exact limit hu hx hv rfl
        · split at h
          · split at h <;>
            · rename_i hv
              obtain ⟨rfl, rfl⟩ := Prod.mk.inj h
              exact limit hu hx hv rfl
          · obtain ⟨rfl, rfl⟩ := Prod.mk.inj h
            exact ⟨[], x, hu, alone⟩

/-- Boundaries are left one after another, up to a failure. -/
lemma says_backtrackFrom (shut : Bool) {path : List PathEntry} :
    ∀ {s t : Search (L × Transcript) κ} {r : Retreat},
      s.backtrackFrom A.transcribed path = (t, r) → Says shut s t r.fault? := by
  induction path with
  | nil =>
    intro s t r h
    obtain ⟨rfl, rfl⟩ := Prod.mk.inj h
    exact .of_eq rfl
  | cons e rest ih =>
    intro s t r h
    simp only [backtrackFrom] at h
    rw [← back] at h
    cases hn : (s.back rest).notify A.transcribed s.outside none .backtracked with
    | mk u f =>
      have hu : Says shut s u f := (says_notify shut (by simp) hn).congr rfl rfl
      rw [hn] at h
      cases f with
      | some f =>
        obtain ⟨rfl, rfl⟩ := Prod.mk.inj h
        exact hu
      | none =>
        simp only at h
        split at h
        · obtain ⟨rfl, rfl⟩ := Prod.mk.inj h
          exact hu
        · cases rest with
          | nil =>
            obtain ⟨rfl, rfl⟩ := Prod.mk.inj h
            exact hu
          | cons e' below =>
            simp only at h
            split at h
            · obtain ⟨rfl, rfl⟩ := Prod.mk.inj h
              exact hu.congr rfl rfl
            · exact hu.trans (ih h)

/-- Whoever asks for the end of a search ends it. -/
lemma unended_act [DecidableEq κ] {x y : Search (L × Transcript) κ × Phase}
    (ha : Act A.transcribed x y) (h : x.1.terminated = false → Unended x.1.listeners.2) :
    y.1.terminated = false → Unended y.1.listeners.2 := by
  have told : ∀ {s t : Search (L × Transcript) κ} {scene top n f},
      s.notify A.transcribed scene top n = (t, f) →
        (s.terminated = false → Unended s.listeners.2) →
          t.terminated = false → Unended t.listeners.2 := by
    intro s t scene top n f hn hs ht
    obtain ⟨r, hT, -, hterm, -⟩ := notify_transcript hn
    rw [hterm, Bool.or_eq_false_iff] at ht
    rw [hT]
    exact List.forall_mem_cons.mpr ⟨ht.2, hs ht.1⟩
  cases ha with
  | report | start | effect | unmade | quit | turn | leave => exact h
  | note => exact fun hy => h (Bool.or_eq_false_iff.mp hy).1
  | begin hn | conclude hn | execute hn | restore _ hn | finish hn => exact told hn h
  | retreat _ _ hn => exact told hn h
  | @reach s t scene top b key previous r hadv =>
    have hentered := told (s := s.enter b key) (t := s.entered A.transcribed scene top b key) rfl
      (by rw [enter_eq]; exact h)
    rcases advance_eq hadv with ⟨rfl, -⟩ | ⟨limit, flag, -, -, rfl⟩
    · exact hentered
    · have hlimited := told (s := { s.entered A.transcribed scene top b key with
        constraint := some limit }) (t := s.limitedBy A.transcribed scene top b key limit) rfl hentered
      exact fun hy => hlimited (Bool.or_eq_false_iff.mp hy).1

end Search

namespace Exploration

/-- Reports are not written down. -/
lemma Reported.transcript_eq {A : Audience L} {s t : Search (L × Transcript) κ}
    (h : Reported A.transcribed s t) : t.listeners.2 = s.listeners.2 := by
  induction h with
  | refl => rfl
  | report _ _ ih => exact ih

open Search

variable {P : Program σ κ} {A : Audience L} {s t : Search (L × Transcript) κ} {shut : Bool}

/-! ## What a move delivers -/

/-- The last notice is delivered. -/
lemma says_finish (shut : Bool) (s : Search (L × Transcript) κ) :
    ∃ r : Reaction, (finish A.transcribed s : _ × Stage σ).1.listeners.2 =
        (⟨s.view s.outside none, .finished⟩, r) :: s.listeners.2 ∧
      Utterance shut [(⟨s.view s.outside none, .finished⟩, r)]
        (finish A.transcribed s : _ × Stage σ).2.fault? := by
  unfold finish
  cases hn : s.notify A.transcribed s.outside none .finished with
  | mk t f =>
    obtain ⟨r, ht, hr, -⟩ := notify_transcript hn
    have hnew : Utterance shut [(⟨s.view s.outside none, .finished⟩, r)] r.failure :=
      utterance_single shut (by simp) r
    rw [hr] at hnew
    cases f <;> exact ⟨r, ht, hnew⟩

/-- A search that has been ended comes to its end after a path. -/
lemma afterPath_of_terminated {A : Audience L} {s : Search L κ} (h : s.terminated = true) :
    (afterPath A s : _ × Stage σ) = finish A { s with paths := s.paths + 1 } := by
  simp [afterPath, h]

/-- The search goes back after a path, or comes to its end. -/
lemma says_afterPath (shut : Bool) (s : Search (L × Transcript) κ) :
    Says shut s (afterPath A.transcribed s : _ × Stage σ).1
      (afterPath A.transcribed s : _ × Stage σ).2.fault? := by
  have last : ∀ t : Search (L × Transcript) κ,
      Says shut t (finish A.transcribed t : _ × Stage σ).1
        (finish A.transcribed t : _ × Stage σ).2.fault? := fun t =>
    let ⟨_, ht, hnew⟩ := says_finish shut t
    ⟨[_], ht, hnew⟩
  have hcount : Says shut s { s with paths := s.paths + 1 } none := .of_eq rfl
  simp only [afterPath]
  split
  · exact hcount.trans (last _)
  · cases hb : ({ s with paths := s.paths + 1 } : Search (L × Transcript) κ).backtrack
        A.transcribed with
    | mk t r =>
      have ht : Says shut s t r.fault? := hcount.trans (says_backtrackFrom shut hb)
      cases r with
      | failed f => exact ht
      | done => exact ht.trans (last t)
      | resume => exact ht

variable [DecidableEq κ]

/-- Before an instruction the last one is concluded, and a boundary is reached if a listener wants
one, unless it has no fingerprint; if no listener does, the instruction itself may be announced
next. -/
lemma says_concludeStep (shut : Bool) {p : σ} {w : Walk} {i : Instruction} {r : Progress}
    (h : concludeStep P A.transcribed s p w i = (t, r)) :
    Says shut s t r.fault? ∨
      (r = .onward ∧ ∃ e, t.listeners.2 = e :: s.listeners.2 ∧
        ∀ d : Delivery, d.notice = .executing i → Sequel shut d e) ∨
      ∃ f, r = .failed f ∧ P.fingerprint w.execution p w.frame .requested = .error f ∧
        w.previous ≠ none ∧ Stalls shut s t := by
  unfold concludeStep at h
  cases hp : w.previous with
  | none =>
    rw [hp] at h
    obtain ⟨rfl, rfl⟩ := Prod.mk.inj h
    exact .inl (.of_eq rfl)
  | some e =>
    rw [hp] at h
    cases hn : s.unasked.notify A.transcribed (P.scene p) w.frame (.executed e (some i)) with
    | mk u f =>
      obtain ⟨x, hu, hx, -, hwish⟩ := notify_transcript hn
      have hwish : u.breakReason = x.breakReason := by simpa [unasked] using hwish
      rw [unasked_listeners] at hu
      rw [unasked] at hn
      simp only [hn] at h
      cases f with
      | some f =>
        obtain ⟨rfl, rfl⟩ := Prod.mk.inj h
        exact .inl ⟨[_], hu, utterance_failed shut hx⟩
      | none =>
        simp only at h
        split at h
        · rename_i hasked
          rw [← unasked] at h
          rw [hwish] at hasked
          rcases reach_cases _ h with ⟨f, hf, rfl, rfl⟩ | ⟨key, -, hadv⟩
          · exact .inr (.inr ⟨f, rfl, hf, by simp, .inr ⟨_, hu, hx, hasked⟩⟩)
          · obtain ⟨rest, y, ht, hnew⟩ := says_advance shut hadv
            rw [unasked_listeners, hu] at ht
            refine .inl ⟨_, by rw [ht, List.append_cons], hnew.concat ⟨hx, ?_⟩⟩
            simp [hasked, arrival]
        · rename_i hasked
          obtain ⟨rfl, rfl⟩ := Prod.mk.inj h
          refine .inr (.inl ⟨rfl, _, hu, fun d hd => ⟨hx, ?_⟩⟩)
          rw [hwish] at hasked
          simpa [hasked] using hd

/-- Before an instruction. -/
lemma says_onInstruction (shut : Bool) {s : Search (L × Transcript) κ} {p : σ} {w : Walk}
    (hw : w.failure = none) (i : Instruction) :
    Says shut s (onInstruction P A.transcribed s p w i).1
        (onInstruction P A.transcribed s p w i).2.fault? ∨
      ∃ f, (onInstruction P A.transcribed s p w i).2.fault? = some f ∧ w.stopping = false ∧
        w.replay = [] ∧ w.previous ≠ none ∧
        P.fingerprint w.execution p (some i.frame) .requested = .error f ∧
        Stalls shut s (onInstruction P A.transcribed s p w i).1 := by
  unfold onInstruction
  split
  · rw [Stage.fault?, hw]
    exact .inl (.of_eq rfl)
  · rename_i hstop
    simp only
    split
    · rw [Stage.fault?]
      simp only [hw]
      exact .inl (.of_eq rfl)
    · rename_i hreplay
      cases hc : concludeStep P A.transcribed s p ⟨w.execution, some i.frame, w.previous, w.stopping,
          w.failure, w.replay, w.replayLength⟩ i with
      | mk t r =>
        have hsaid := says_concludeStep shut hc
        cases r with
        | failed f =>
          rcases hsaid with hsaid | ⟨hne, -⟩ | ⟨f', hf', hf, hprev, hstall⟩
          · exact .inl hsaid
          · cases hne
          · obtain rfl : f = f' := by simpa using hf'
            exact .inr ⟨f, rfl, by simpa using hstop, by simpa using hreplay, hprev, hf, hstall⟩
        | halt => exact .inl (hsaid.resolve_right (by simp))
        | onward =>
          refine .inl ?_
          simp only
          cases hn : t.notify A.transcribed (P.scene p) (some i.frame) (.executing i) with
          | mk u f =>
            -- the announcement comes after all that has been said, be it settled or not
            have hsaid : Says shut s u f := by
              rcases hsaid with hsaid | ⟨-, e, ht, he⟩ | ⟨f', hf', -⟩
              · exact hsaid.trans (says_notify shut (by simp) hn)
              · obtain ⟨x, hu, rfl, -⟩ := notify_transcript hn
                rw [ht] at hu
                exact ⟨[_, e], hu, (utterance_single shut (by simp) x).sequel (he _ rfl)⟩
              · cases hf'
            cases f with
            | some f => exact hsaid
            | none =>
              simp only
              split
              · exact hsaid
              · simpa only [Stage.fault?, hw] using hsaid

/-- At a choice. -/
lemma says_onChoice (shut : Bool) {s : Search (L × Transcript) κ} {p : σ} {w : Walk}
    (hw : w.failure = none) (n : Int) :
    Says shut s (onChoice P A.transcribed s p w n).1
        (onChoice P A.transcribed s p w n).2.fault? ∨
      ∃ f, (onChoice P A.transcribed s p w n).2.fault? = some f ∧ w.stopping = false ∧
        w.replay = [] ∧ 1 ≤ n ∧
        P.fingerprint w.execution p w.frame (.choice n.toNat) = .error f ∧
        Stalls shut s (onChoice P A.transcribed s p w n).1 := by
  unfold onChoice
  split
  · rw [Stage.fault?, hw]
    exact .inl (.of_eq rfl)
  · rename_i hn
    split
    · rw [Stage.fault?, hw]
      exact .inl (.of_eq rfl)
    · rename_i hstop
      split
      · refine .inl ?_
        simp only
        split
        · cases hn : s.notify A.transcribed (P.scene p) w.frame .restored with
          | mk t f =>
            have ht : Says shut s t f := says_notify shut (by simp) hn
            cases f with
            | some f => exact ht
            | none =>
              simp only
              split
              · exact ht
              · simpa only [Stage.fault?, hw] using ht
        · simp only [Stage.fault?, hw]
          exact .of_eq rfl
      · rename_i hreplay
        cases hr : s.reach A.transcribed (P.scene p) w.frame (.choice n.toNat)
            (P.fingerprint w.execution p w.frame (.choice n.toNat)) with
        | mk t r =>
          simp only [hr]
          rcases reach_cases _ hr with ⟨f, hf, rfl, rfl⟩ | ⟨key, -, hadv⟩
          · exact .inr ⟨f, rfl, by simpa using hstop, hreplay, by omega, hf, .inl rfl⟩
          · obtain ⟨rest, x, ht, hnew⟩ := says_advance shut hadv
            have ht : Says shut s t r.fault? := ⟨_, ht, hnew⟩
            refine .inl ?_
            cases r with
            | failed f => exact ht
            | halt => exact ht
            | onward =>
              simp only [Stage.fault?, hw]
              exact ht

/-- At the end of the program the last instruction is concluded, and the end state is reached,
unless it has no fingerprint; if the search has been ended by then, the last notice may come
next. -/
lemma says_finishPath {p : σ} {w : Walk} {f : Option Fault}
    (h : finishPath P A.transcribed s p w = (t, f)) :
    Says s.terminated s t f ∨
      (f = none ∧ t.terminated = true ∧ ∃ e, t.listeners.2 = e :: s.listeners.2 ∧
        ∀ d : Delivery, d.notice = .finished → Sequel s.terminated d e) ∨
      ∃ g, f = some g ∧ P.fingerprint w.execution p none .finished = .error g ∧
        Stalls s.terminated s t := by
  unfold finishPath at h
  cases hp : w.previous with
  | none =>
    rw [hp] at h
    simp only at h
    split at h
    · obtain ⟨rfl, rfl⟩ := Prod.mk.inj h
      exact .inl (.of_eq rfl)
    · cases hr : s.unasked.reach A.transcribed (P.scene p) none .finished
          (P.fingerprint w.execution p none .finished) with
      | mk v r =>
        rw [← unasked, hr] at h
        rcases reach_cases _ hr with ⟨g, hg, rfl, rfl⟩ | ⟨key, -, hadv⟩
        · obtain ⟨rfl, rfl⟩ := Prod.mk.inj h
          exact .inr (.inr ⟨g, rfl, hg, .inl rfl⟩)
        · obtain ⟨rest, x, hv, hnew⟩ := says_advance s.terminated hadv
          cases r <;>
          · obtain ⟨rfl, rfl⟩ := Prod.mk.inj h
            exact .inl ⟨_, hv, hnew⟩
  | some e =>
    rw [hp] at h
    cases hn : s.unasked.notify A.transcribed (P.scene p) none (.executed e none) with
    | mk u f =>
      obtain ⟨x, hu, hx, hterm, -⟩ := notify_transcript hn
      rw [unasked_listeners] at hu
      rw [unasked_terminated] at hterm
      rw [unasked] at hn
      simp only [hn] at h
      cases f with
      | some f =>
        obtain ⟨rfl, rfl⟩ := Prod.mk.inj h
        exact .inl ⟨[_], hu, utterance_failed _ hx⟩
      | none =>
        simp only at h
        split at h
        · rename_i hover
          obtain ⟨rfl, rfl⟩ := Prod.mk.inj h
          rw [hterm] at hover
          exact .inr (.inl ⟨rfl, hterm ▸ hover, _, hu, fun d hd => ⟨hx, (if_pos hover).mpr hd⟩⟩)
        · rename_i hover
          rw [hterm] at hover
          cases hr : u.unasked.reach A.transcribed (P.scene p) none .finished
              (P.fingerprint w.execution p none .finished) with
          | mk v r =>
            rw [← unasked, hr] at h
            rcases reach_cases _ hr with ⟨g, hg, rfl, rfl⟩ | ⟨key, -, hadv⟩
            · obtain ⟨rfl, rfl⟩ := Prod.mk.inj h
              exact .inr (.inr ⟨g, rfl, hg, .inr ⟨_, hu, hx, by simpa using hover⟩⟩)
            · obtain ⟨rest, y, hv, hnew⟩ := says_advance s.terminated hadv
              rw [unasked_listeners, hu] at hv
              have hend : ∀ view, Sequel s.terminated (u.unasked.arrival (P.scene p) none .finished
                  key) (⟨view, .executed e none⟩, x) :=
                fun _ => ⟨hx, (if_neg hover).mpr ⟨rfl, by simp⟩⟩
              have hv : Says s.terminated s v r.fault? :=
                ⟨_, by rw [hv, List.append_cons], hnew.concat (hend _)⟩
              cases r <;>
              · obtain ⟨rfl, rfl⟩ := Prod.mk.inj h
                exact .inl hv

/-- At the end of an execution. -/
lemma says_onEnd {s : Search (L × Transcript) κ} {p : σ} {w : Walk} (hw : w.failure = none)
    (ending : Ending) :
    Says s.terminated s (onEnd P A.transcribed s p w ending).1
        (onEnd P A.transcribed s p w ending).2.fault? ∨
      ∃ f, (onEnd P A.transcribed s p w ending).2.fault? = some f ∧ w.stopping = false ∧
        w.replay = [] ∧ ending ≠ .stopped ∧
        (∀ type message, ending ≠ .interrupted type message) ∧
        P.fingerprint w.execution p none .finished = .error f ∧
        Stalls s.terminated s (onEnd P A.transcribed s p w ending).1 := by
  by_cases hi : ∃ type message, ending = .interrupted type message
  · obtain ⟨type, message, rfl⟩ := hi
    exact .inl (.of_eq rfl)
  · obtain ⟨t, hrep, hend⟩ := onEnd_eq (P := P) (A := A.transcribed) s p w
      fun type message h => hi ⟨type, message, h⟩
    have ht := hrep.transcript_eq
    have hterm : t.terminated = s.terminated := by
      obtain ⟨l, rfl⟩ := hrep.eq
      rfl
    rw [hend, endPath, hw]
    have hst : Says s.terminated s t none := .of_eq ht
    simp only
    split
    · exact .inl (hst.trans (says_afterPath _ t))
    · rename_i hstop
      obtain ⟨hstop, hending⟩ : w.stopping = false ∧ ending ≠ .stopped := by simpa using hstop
      split
      · exact .inl (hst.trans ((says_afterPath _ _).congr rfl rfl))
      · rename_i hreplay
        cases hfin : finishPath P A.transcribed t p w with
        | mk u f =>
          rcases says_finishPath hfin with hsaid | ⟨rfl, hover, e, hu, he⟩ | ⟨g, rfl, hg, hstall⟩
          · rw [hterm] at hsaid
            cases f with
            | some f => exact .inl (hst.trans hsaid)
            | none => exact .inl (hst.trans (hsaid.trans (says_afterPath _ u)))
          · -- the search has been ended, so that the last notice comes next
            rw [hterm] at he
            obtain ⟨r, hv, hnew⟩ := says_finish (σ := σ) (A := A) s.terminated
              ({ u with paths := u.paths + 1 } : Search (L × Transcript) κ)
            simp only [afterPath_of_terminated hover]
            exact .inl (hst.trans
              ⟨[_, e], hv.trans (congrArg (List.cons _) hu), hnew.sequel (he _ rfl)⟩)
          · rw [hterm] at hstall
            refine .inr ⟨g, rfl, hstop, by simpa using hreplay, hending,
              fun type message h => hi ⟨type, message, h⟩, hg, ?_⟩
            simpa only [Stalls, ht] using hstall

variable (P) in
/-- The next move reaches a boundary of which no fingerprint can be made. -/
def Unmade (x : Exploration σ L κ) (f : Fault) : Prop :=
  ∃ p w q top b before, x.stage = .executing p w ∧ w.stopping = false ∧ w.replay = [] ∧
    Arrives P x.search p w q top b before ∧ P.fingerprint w.execution q top b = .error f

/-- As long as no listener has failed, what a move of an execution delivers hangs together, or it
stalls at a boundary without a fingerprint. -/
lemma says_executing {p : σ} {w : Walk} (hw : w.failure = none) (s : Search (L × Transcript) κ)
    (printed : Array String) :
    Says s.terminated s (step P A.transcribed ⟨s, .executing p w, printed⟩).search
        (step P A.transcribed ⟨s, .executing p w, printed⟩).stage.fault? ∨
      ∃ f, Unmade P ⟨s, .executing p w, printed⟩ f ∧
        (step P A.transcribed ⟨s, .executing p w, printed⟩).stage.fault? = some f ∧
        Stalls s.terminated s (step P A.transcribed ⟨s, .executing p w, printed⟩).search := by
  cases hp : P.next p with
  | instruction i q =>
    simp only [step, hp]
    refine (says_onInstruction _ hw i).imp_right ?_
    rintro ⟨f, hfault, hstop, hr, hprev, hf, hstall⟩
    exact ⟨f, ⟨p, w, q, _, _, _, rfl, hstop, hr, .requested hp hprev, hf⟩, hfault, hstall⟩
  | choice n q =>
    simp only [step, hp]
    refine (says_onChoice _ hw n).imp_right ?_
    rintro ⟨f, hfault, hstop, hr, hn, hf, hstall⟩
    exact ⟨f, ⟨p, w, q, _, _, _, rfl, hstop, hr, .choice hp hn, hf⟩, hfault, hstall⟩
  | ended ending q =>
    simp only [step, hp]
    refine (says_onEnd hw ending).imp_right ?_
    rintro ⟨f, hfault, hstop, hr, he, hi, hf, hstall⟩
    exact ⟨f, ⟨p, w, q, _, _, _, rfl, hstop, hr, .finished hp he hi, hf⟩, hfault, hstall⟩
  | effect e q =>
    refine .inl ?_
    simp only [step, hp]
    split <;> · rw [Stage.fault?, hw]; exact .of_eq rfl
  | internal q | print text q | terminate q =>
    refine .inl ?_
    simp only [step, hp, Stage.fault?, hw]
    exact .of_eq rfl

/-- While a path is being stopped because a listener has failed nothing is delivered. It stays the
failure that surfaces, unless the program is left by a signal to the whole run. -/
lemma still_of_failure {p : σ} {w : Walk} {f : Fault} (hw : w.failure = some f)
    (hstop : w.stopping = true) (s : Search (L × Transcript) κ) (printed : Array String) :
    (step P A.transcribed ⟨s, .executing p w, printed⟩).search.listeners.2 = s.listeners.2 ∧
      ((step P A.transcribed ⟨s, .executing p w, printed⟩).stage.fault? = some f ∨
        ∃ type message, (step P A.transcribed ⟨s, .executing p w, printed⟩).stage =
          .ended (.interrupted type message)) := by
  by_cases hp : ∀ ending q, P.next p ≠ .ended ending q
  · obtain ⟨printed', hstep⟩ := step_stopping (A := A.transcribed) hstop s printed hp
    rw [hstep]
    exact ⟨rfl, .inl hw⟩
  · push Not at hp
    obtain ⟨ending, q, hp⟩ := hp
    by_cases hi : ∃ type message, ending = .interrupted type message
    · obtain ⟨type, message, rfl⟩ := hi
      simp only [step, hp]
      exact ⟨rfl, .inr ⟨type, message, rfl⟩⟩
    · obtain ⟨t, hrep, -, hend⟩ := onEnd_of_stopping (P := P) (A := A.transcribed) hstop s q
        fun type message h => hi ⟨type, message, h⟩
      simp only [step, hp, hend, letThrough, hw]
      exact ⟨hrep.transcript_eq, .inl rfl⟩

/-- As long as no failure is about to surface, what a move delivers hangs together, or it stalls at
a boundary without a fingerprint; once one is, nothing is delivered any more, and it stays the
failure that surfaces, unless the program is left by a signal to the whole run. -/
lemma utterance_step {x : Exploration σ (L × Transcript) κ} (ho : x.stage.Orderly) :
    (x.stage.fault? = none ∧
        (Says x.search.terminated x.search (step P A.transcribed x).search
            (step P A.transcribed x).stage.fault? ∨
          ∃ f, Unmade P x f ∧ (step P A.transcribed x).stage.fault? = some f ∧
            Stalls x.search.terminated x.search (step P A.transcribed x).search)) ∨
      ∃ f, x.stage.fault? = some f ∧
        (step P A.transcribed x).search.listeners.2 = x.search.listeners.2 ∧
        ((step P A.transcribed x).stage.fault? = some f ∨
          ∃ type message, (step P A.transcribed x).stage = .ended (.interrupted type message)) := by
  obtain ⟨s, stage, printed⟩ := x
  cases stage with
  | waiting =>
    refine .inl ⟨rfl, .inl ?_⟩
    simp only [step, begin]
    cases hn : s.notify A.transcribed s.outside none .started with
    | mk t f =>
      have ht : Says s.terminated s t f := says_notify _ (by simp) hn
      cases f <;> exact ht
  | launching =>
    refine .inl ⟨rfl, .inl ?_⟩
    simp only [step, launch]
    split
    · obtain ⟨r, ht, hnew⟩ := says_finish (σ := σ) (A := A) s.terminated s
      exact ⟨[_], ht, hnew⟩
    · exact .of_eq rfl
  | ended e =>
    cases e with
    | failed f => exact .inr ⟨f, rfl, rfl, .inl rfl⟩
    | completed => exact .inl ⟨rfl, .inl (.of_eq rfl)⟩
    | interrupted type message => exact .inl ⟨rfl, .inl (.of_eq rfl)⟩
  | executing p w =>
    cases hw : w.failure with
    | none => exact .inl ⟨hw, says_executing hw s printed⟩
    | some f => exact .inr ⟨f, hw, still_of_failure hw (ho (by simp [hw])) s printed⟩

/-- A search that is over makes no moves. -/
lemma step_ended {A : Audience L} {x : Exploration σ L κ} {e : Exit}
    (h : x.stage = .ended e) : step P A x = x := by
  obtain ⟨s, stage, printed⟩ := x
  obtain rfl : stage = .ended e := h
  rfl

/-! ## Runs -/

section Runs

variable {name : String} {depthLimit maxStates : Option Int} {outside : Scene} {l : L} {n : Nat}
  {later earlier : Transcript} {d : Delivery} {r : Reaction}

lemma orderly_transcribedAfter (n : Nat) :
    (transcribedAfter P A name depthLimit maxStates outside l n).stage.Orderly :=
  orderly_after (x := ofSearch _) trivial n

/-- Once a failure is about to surface, or the program has been left by a signal to the whole run,
nothing is delivered any more, and that stays so. -/
lemma still_of_surfacing {f : Fault}
    (h : (transcribedAfter P A name depthLimit maxStates outside l n).stage.fault? = some f ∨
      ∃ type message, (transcribedAfter P A name depthLimit maxStates outside l n).stage =
        .ended (.interrupted type message)) :
    (transcribedAfter P A name depthLimit maxStates outside l (n + 1)).search.listeners.2 =
        (transcribedAfter P A name depthLimit maxStates outside l n).search.listeners.2 ∧
      ((transcribedAfter P A name depthLimit maxStates outside l (n + 1)).stage.fault? = some f ∨
        ∃ type message, (transcribedAfter P A name depthLimit maxStates outside l (n + 1)).stage =
          .ended (.interrupted type message)) := by
  have ho : (transcribedAfter P A name depthLimit maxStates outside l n).stage.Orderly :=
    orderly_transcribedAfter n
  rw [transcribedAfter, after_succ, ← transcribedAfter]
  rcases h with h | ⟨type, message, h⟩
  · rcases utterance_step ho with ⟨hf, -⟩ | ⟨g, hg, hT, hstage⟩
    · simp [h] at hf
    · obtain rfl : f = g := by simpa [h] using hg
      exact ⟨hT, hstage⟩
  · rw [step_ended h]
    exact ⟨rfl, .inr ⟨type, message, h⟩⟩

/-- In every run at most the last delivery has failed, and its failure is the one that surfaces,
unless the program has been left by a signal to the whole run. If none has failed, a failure
surfaces only at a boundary of which no fingerprint can be made, and nothing is delivered after it.

**Proof sketch.** Induction on the number of moves. As long as no failure is about to surface none
of the deliveries has failed, and a move adds deliveries that hang together, or it stalls,
`utterance_step`; then nothing is added any more. -/
theorem surfaces_after (n : Nat) :
    let x := transcribedAfter P A name depthLimit maxStates outside l
    (∀ e ∈ (x n).search.listeners.2.tail, e.2.failure = none) ∧
      ((x n).stage.fault? = fault? (x n).search.listeners.2 ∨
        (∃ type message, (x n).stage = .ended (.interrupted type message)) ∨
        fault? (x n).search.listeners.2 = none ∧
          ∃ f, (x n).stage.fault? = some f ∧ ∃ m < n, Unmade P (x m) f ∧
            Stalls (x m).search.terminated (x m).search (x n).search) := by
  intro x
  induction n with
  | zero => exact ⟨by simp [x, transcribedAfter, ofSearch, Search.new], .inl rfl⟩
  | succ n ih =>
    obtain ⟨hclean, hsurface⟩ := ih
    have ho : (x n).stage.Orderly := orderly_transcribedAfter n
    have hstep : x (n + 1) = step P A.transcribed (x n) := after_succ n _
    cases hf : (x n).stage.fault? with
    | some f =>
      obtain ⟨hT, hstage⟩ : _ ∧ ((x (n + 1)).stage.fault? = some f ∨ _) :=
        still_of_surfacing (.inl hf)
      rw [hT]
      refine ⟨hclean, ?_⟩
      rcases hstage with hstage | hstage
      · rw [hstage]
        rcases hsurface with hsurface | ⟨type, message, hover⟩ | ⟨hnone, g, hg, m, hm, hun, hst⟩
        · exact .inl (hf ▸ hsurface)
        · simp [hover, Stage.fault?] at hf
        · obtain rfl : f = g := by simpa [hf] using hg
          exact .inr (.inr ⟨hnone, f, rfl, m, by omega, hun, by rwa [Stalls, hT]⟩)
      · exact .inr (.inl hstage)
    | none =>
      rcases hsurface with hsurface | ⟨type, message, hover⟩ | ⟨-, g, hg, -⟩
      · rw [hf] at hsurface
        have hall := clean_of_fault? hclean hsurface.symm
        rcases utterance_step ho with ⟨-, ⟨new, hT, hnew⟩ | ⟨f, hun, hstage, hstall⟩⟩ | ⟨f, hsome, -⟩
        · rw [hstep, hT]
          exact ⟨hnew.clean hall, .inl (hnew.fault?_append hsurface.symm).symm⟩
        · rw [hstep]
          have hstill := hstall.clean hall
          exact ⟨fun e he => hstill e (List.mem_of_mem_tail he), .inr (.inr
            ⟨fault?_of_clean hstill, f, hstage, n, Nat.lt_succ_self n, hun, hstall⟩)⟩
        · simp [hf] at hsome
      · rw [hstep, step_ended hover]
        exact ⟨hclean, .inr (.inl ⟨type, message, hover⟩)⟩
      · simp [hf] at hg

/-- Before a delivery none has failed. -/
lemma clean_before
    (h : (transcribedAfter P A name depthLimit maxStates outside l n).search.listeners.2 =
      later ++ (d, r) :: earlier) : ∀ e ∈ earlier, e.2.failure = none := by
  obtain ⟨hclean, -⟩ : (∀ e ∈ (transcribedAfter P A name depthLimit maxStates outside l
      n).search.listeners.2.tail, e.2.failure = none) ∧ _ := surfaces_after n
  rw [h] at hclean
  intro e he
  refine hclean e ?_
  cases later with
  | nil => exact he
  | cons e' later => exact List.mem_append_right later (List.mem_cons_of_mem _ he)

/-- A delivery that has failed is the last one. -/
lemma eq_nil_of_failed
    (h : (transcribedAfter P A name depthLimit maxStates outside l n).search.listeners.2 =
      later ++ (d, r) :: earlier)
    (hr : r.failure ≠ none) : later = [] := by
  cases later with
  | nil => rfl
  | cons e later =>
    have h : (transcribedAfter P A name depthLimit maxStates outside l n).search.listeners.2 =
        [] ++ (e.1, e.2) :: (later ++ (d, r) :: earlier) := h
    exact absurd (clean_before h (d, r) (by simp)) hr

/-- As long as a run has not been ended nobody has asked for its end. -/
lemma unended_after
    (h : (transcribedAfter P A name depthLimit maxStates outside l n).search.terminated = false) :
    Unended (transcribedAfter P A name depthLimit maxStates outside l n).search.listeners.2 :=
  invariant_after (I := fun y => y.1.terminated = false → Unended y.1.listeners.2)
    (x := ofSearch _) trivial (fun _ => by simp [Unended, ofSearch, Search.new])
    (fun ha hy => unended_act ha hy) n h

variable (P A name depthLimit maxStates outside l) in
/-- What a move of a run delivers: nothing is left to follow, unless the move stalls at a boundary of
which no fingerprint can be made. -/
lemma exists_said (n : Nat) :
    ∃ new, (transcribedAfter P A name depthLimit maxStates outside l (n + 1)).search.listeners.2 =
        new ++ (transcribedAfter P A name depthLimit maxStates outside l n).search.listeners.2 ∧
      Connected (transcribedAfter P A name depthLimit maxStates outside l n).search.terminated new ∧
      (Settled new ∨
        ∃ f e, Unmade P (transcribedAfter P A name depthLimit maxStates outside l n) f ∧
          (transcribedAfter P A name depthLimit maxStates outside l (n + 1)).stage.fault? = some f ∧
          new = [e] ∧
          Owes (transcribedAfter P A name depthLimit maxStates outside l n).search.terminated
            e) := by
  have ho : (transcribedAfter P A name depthLimit maxStates outside l n).stage.Orderly :=
    orderly_transcribedAfter n
  have hnil := utterance_nil
    (transcribedAfter P A name depthLimit maxStates outside l n).search.terminated
  rw [transcribedAfter, after_succ, ← transcribedAfter]
  rcases utterance_step ho with
    ⟨-, ⟨new, hT, hnew⟩ | ⟨f, hun, hstage, hT | ⟨e, hT, howes⟩⟩⟩ | ⟨-, -, hT, -⟩
  · exact ⟨new, hT, hnew.connected, .inl hnew.settled⟩
  · exact ⟨[], hT, hnil.connected, .inl hnil.settled⟩
  · exact ⟨[e], hT, List.isChain_singleton e, .inr ⟨f, e, hun, hstage, rfl, howes⟩⟩
  · exact ⟨[], hT, hnil.connected, .inl hnil.settled⟩

/-- What has been delivered stays delivered. -/
lemma transcript_suffix {m n : Nat} (hmn : m ≤ n) :
    (transcribedAfter P A name depthLimit maxStates outside l m).search.listeners.2 <:+
      (transcribedAfter P A name depthLimit maxStates outside l n).search.listeners.2 := by
  induction hmn with
  | refl => exact List.suffix_rfl
  | @step n _ ih =>
    obtain ⟨new, hT, -⟩ := exists_said P A name depthLimit maxStates outside l n
    exact ih.trans ⟨new, hT.symm⟩

variable (P A name depthLimit maxStates outside l) in
/-- After a delivery, with what came before it, a run has come to nothing: a boundary had to follow,
of which no fingerprint can be made, and that surfaces unless the program has been left by a signal
to the whole run. -/
def Stranded (n : Nat) (d : Delivery) (r : Reaction) (earlier : Transcript) : Prop :=
  let x := transcribedAfter P A name depthLimit maxStates outside l
  ∃ m < n, ∃ f, Unmade P (x m) f ∧ Owes (x m).search.terminated (d, r) ∧
    (x m).search.listeners.2 <:+ earlier ∧ (d, r) :: earlier <:+ (x (m + 1)).search.listeners.2 ∧
    ((x n).stage.fault? = some f ∨
      ∃ type message, (x n).stage = .ended (.interrupted type message))

/-- What comes right after the conclusion of an instruction, in every run: nothing if a listener
fails there, or if a boundary has to follow of which no fingerprint can be made; and else, within
the move that concluded it, what the wishes of the listeners and the end of the search until then
ask for.

**Proof sketch.** Induction on the number of moves. If the conclusion was delivered by the last one,
what comes next is part of what that move delivers, `exists_said`; if it was delivered before, what
comes next has been there already, since nothing is delivered after a failure. -/
theorem exists_sequel {i : Instruction} {next : Option Instruction}
    (h : (transcribedAfter P A name depthLimit maxStates outside l n).search.listeners.2 =
      later ++ (d, r) :: earlier)
    (hd : d.notice = .executed i next) :
    (later = [] ∧ r.failure ≠ none) ∨
      (later = [] ∧ Stranded P A name depthLimit maxStates outside l n d r earlier) ∨
      ∃ (rest : Transcript) (e : Delivery × Reaction) (m : Nat), later = rest ++ [e] ∧ m < n ∧
        (transcribedAfter P A name depthLimit maxStates outside l m).search.listeners.2 <:+
          earlier ∧
        e :: (d, r) :: earlier <:+
          (transcribedAfter P A name depthLimit maxStates outside l (m + 1)).search.listeners.2 ∧
        Sequel (transcribedAfter P A name depthLimit maxStates outside l m).search.terminated e.1
          (d, r) := by
  induction n generalizing later with
  | zero => simp [transcribedAfter, ofSearch, Search.new] at h
  | succ n ih =>
    obtain ⟨new, hT, hconn, hsettled⟩ := exists_said P A name depthLimit maxStates outside l n
    have hsplit := hT.symm.trans h
    -- the conclusion was delivered before the last move, or by it
    obtain ⟨between, rfl, hbefore⟩ | ⟨between, rfl, rfl⟩ :
        (∃ between, later = new ++ between ∧
          (transcribedAfter P A name depthLimit maxStates outside l n).search.listeners.2 =
            between ++ (d, r) :: earlier) ∨
        ∃ between, new = later ++ (d, r) :: between ∧ earlier = between ++
          (transcribedAfter P A name depthLimit maxStates outside l n).search.listeners.2 := by
      rcases List.append_eq_append_iff.mp hsplit with ⟨as, rfl, hn⟩ | ⟨bs, rfl, hn⟩
      · exact .inl ⟨as, rfl, hn⟩
      · rcases List.cons_eq_append_iff.mp hn with ⟨rfl, hn⟩ | ⟨bs, rfl, hn⟩
        · exact .inl ⟨[], by simp, hn.symm⟩
        · exact .inr ⟨bs, rfl, (List.cons.inj hn).2⟩
    · rcases ih hbefore with ⟨rfl, hr⟩ | ⟨rfl, m, hm, f, hun, howes, hs, hs', hover⟩ |
        ⟨rest, e, m, rfl, hm, hsequel⟩
      · exact .inl ⟨eq_nil_of_failed h hr, hr⟩
      · obtain ⟨hstill, hover⟩ := still_of_surfacing hover
        obtain rfl : new = [] := List.append_left_eq_self.mp (hT.symm.trans hstill)
        exact .inr (.inl ⟨rfl, m, by omega, f, hun, howes, hs, hs', hover⟩)
      · exact .inr (.inr ⟨new ++ rest, e, m, by rw [List.append_assoc], by omega, hsequel⟩)
    · rcases List.eq_nil_or_concat' later with rfl | ⟨rest, e, rfl⟩
      · rcases hsettled with hsettled | ⟨f, e, hun, hstage, he, howes⟩
        · exact .inl ⟨rfl, fun hr => hsettled (d, r) rfl hr i next hd⟩
        · obtain ⟨rfl, rfl⟩ : (d, r) = e ∧ between = [] := by simpa using he
          exact .inr (.inl ⟨rfl, n, by omega, f, hun, howes, List.suffix_rfl,
            h ▸ List.suffix_rfl, .inl hstage⟩)
      · rw [List.append_assoc] at hconn
        exact .inr (.inr ⟨rest, e, n, rfl, by omega, List.suffix_append _ _,
          ⟨rest, by rw [h, List.append_cons]⟩, hconn.sequel⟩)

end Runs

end Exploration

end StateAtlas
