import StateAtlas.Proofs.Program.Coins
import StateAtlas.Proofs.Search.Saying
import StateAtlas.Search.Recorder

set_option autoImplicit false

/-!
# The end that a listener asks for

A listener may ask for the end of the search in answer to any notice. The search looks at this wish
after every notice but one: when the conclusion of an instruction has been announced and another
instruction follows, it still reaches the boundary that a listener wants there, or else announces
the next instruction. Everywhere else nothing but the last notice is delivered after the wish, and
no state is discovered any more.

## Main definitions

* `StateAtlas.Audience.transcribed` — an audience that writes down what it hears and how it reacts.
* `StateAtlas.Transcript.Permits` — what may be delivered after a transcript.
* `StateAtlas.Transcript.Heeded` — a transcript in which the wish for the end has been heeded.
* `StateAtlas.Search.Heeds` — a search that has heeded the wish so far.

## Main results

* `StateAtlas.Exploration.termination_heeded` — what is delivered after a wish for the end, in every
  run.
* `StateAtlas.Exploration.termination_overrun` — after the conclusion of an instruction a new state
  may be discovered.

## Design

A transcript has the last delivery first. What the flag of the search tells about the transcript is
part of the invariant: as long as the flag is down nobody has asked for the end. The flag may be up
without such a wish, since the program and the limit on states raise it too.
-/

namespace StateAtlas

variable {σ L κ : Type}

/-- The deliveries of a search, each with the reaction to it, the last one first. -/
abbrev Transcript := List (Delivery × Reaction)

/-- An audience that reacts as another one does and writes down what it hears and how it reacts. -/
def Audience.transcribed (A : Audience L) : Audience (L × Transcript) where
  hear l view n :=
    let (l', r) := A.hear l.1 view n
    ((l', (⟨view, n⟩, r) :: l.2), r)
  report l r := (A.report l.1 r, l.2)

/-- Whether a notice is the conclusion of an instruction that another one follows. -/
def Notice.isBetween : Notice → Bool
  | .executed _ (some _) => true
  | _ => false

/-- An audience that asks for the end of the search, and for a boundary, at some notices. -/
def Audience.hasty (asks : Notice → Bool) : Audience Unit where
  hear _ _ n := ((), if asks n then ⟨true, some "hasty", none⟩ else .none)
  report _ _ := ()

namespace Transcript

/-- What has been delivered. -/
def log (T : Transcript) : Log := T.map Prod.fst

/-- Nobody has asked for the end of the search. -/
def Unended (T : Transcript) : Prop := ∀ e ∈ T, e.2.terminate = false

/-- The last notice has not been delivered. -/
def Open (T : Transcript) : Prop := ∀ e ∈ T, e.1.notice ≠ .finished

/-- The conclusion of an instruction that is followed by `i` has been delivered last, and nobody
has asked for the end of the search before. -/
def Concludes (T : Transcript) (i : Instruction) : Prop :=
  ∃ view e r earlier, T = (⟨view, .executed e (some i)⟩, r) :: earlier ∧ Unended earlier

/-- What may be delivered after a transcript: anything as long as nobody has asked for the end, the
last notice at any time, and between two instructions a boundary or the next instruction. -/
inductive Permits (T : Transcript) : Notice → Prop
  | unended {n : Notice} (h : Unended T) : Permits T n
  | finished : Permits T .finished
  | boundary {i : Instruction} (h : Concludes T i) : Permits T .advanced
  | instruction {i : Instruction} (h : Concludes T i) : Permits T (.executing i)

/-- At most the last notice. -/
inductive Final : Transcript → Prop
  | nil : Final []
  | finished {e : Delivery × Reaction} (he : e.1.notice = .finished) : Final [e]

/-- What is let through after a delivery: a boundary or the next instruction, if the delivery was
the conclusion of an instruction that another one follows, and else nothing. -/
inductive Overrun (d : Delivery) : Transcript → Prop
  | nil : Overrun d []
  | boundary {e : Delivery × Reaction} {i next : Instruction}
      (hd : d.notice = .executed i (some next)) (he : e.1.notice = .advanced) : Overrun d [e]
  | instruction {e : Delivery × Reaction} {i next : Instruction}
      (hd : d.notice = .executed i (some next)) (he : e.1.notice = .executing next) :
      Overrun d [e]

/-- The last notice discovers nothing. -/
lemma Final.discovered_append {last : Transcript} (h : Final last) (T : Transcript) :
    Log.discovered (log (last ++ T)) = Log.discovered (log T) := by
  cases h with
  | nil => rfl
  | @finished e he => exact Log.discovered_of_ne (n := e.1.notice) (by simp [he]) e.1.view (log T)

/-- The last notice is not let through. -/
lemma Overrun.opened {d : Delivery} {overrun : Transcript} (h : Overrun d overrun) :
    Open overrun := by
  intro e he
  cases h with
  | nil => simp at he
  | boundary _ hn | instruction _ hn => rw [List.mem_singleton.mp he, hn]; simp

/-- Nothing has been delivered that was not permitted, nor anything after the last notice. -/
inductive Heeded : Transcript → Prop
  | nil : Heeded []
  | cons {d : Delivery} {r : Reaction} {T : Transcript} (h : Heeded T) (ho : Open T)
      (hp : Permits T d.notice) : Heeded ((d, r) :: T)

/-- What has been asked for stays asked for. -/
lemma not_unended {e : Delivery × Reaction} (he : e.2.terminate = true) {T : Transcript}
    (hT : e ∈ T) : ¬Unended T := fun hu => by simpa [he] using hu e hT

/-- Only after the conclusion of an instruction is another one about to run. -/
lemma notice_of_concludes {e : Delivery × Reaction} {T : Transcript} {i : Instruction}
    (h : Concludes (e :: T) i) : ∃ j, e.1.notice = .executed j (some i) := by
  obtain ⟨view, j, r, earlier, heq, -⟩ := h
  obtain ⟨rfl, -⟩ := List.cons.inj heq
  exact ⟨j, rfl⟩

/-- Once the end has been asked for, and no instruction has just been concluded, only the last
notice is permitted. -/
lemma Permits.eq_finished {T : Transcript} {n : Notice} (h : Permits T n) (hT : ¬Unended T)
    (hc : ∀ i, ¬Concludes T i) : n = .finished := by
  cases h with
  | unended hu => exact absurd hu hT
  | finished => rfl
  | boundary hi | instruction hi => exact absurd hi (hc _)

namespace Heeded

variable {later T : Transcript} {e : Delivery × Reaction}

lemma of_append (h : Heeded (later ++ T)) : Heeded T := by
  induction later with
  | nil => exact h
  | cons _ later ih =>
    cases h with
    | cons h _ _ => exact ih h

/-- Nothing follows the last notice. -/
lemma eq_nil (h : Heeded (later ++ e :: T)) (he : e.1.notice = .finished) : later = [] := by
  induction later with
  | nil => rfl
  | cons _ later ih =>
    cases h with
    | cons h ho _ => exact absurd he (ho e (by simp))

/-- The last notice has not been delivered before anything. -/
lemma opened (h : Heeded (e :: T)) : Open T := by
  cases h with
  | cons _ ho _ => exact ho

lemma permits (h : Heeded (later ++ e :: T)) : Permits T e.1.notice := by
  cases h.of_append with
  | cons _ _ hp => exact hp

/-- Once the end has been asked for, and no instruction has just been concluded, nothing but the
last notice follows. -/
lemma final (h : Heeded (later ++ T)) (hT : ¬Unended T) (hc : ∀ i, ¬Concludes T i) :
    Final later := by
  rcases List.eq_nil_or_concat' later with rfl | ⟨rest, e, rfl⟩
  · exact .nil
  · rw [List.append_assoc, List.singleton_append] at h
    have he : e.1.notice = .finished := h.permits.eq_finished hT hc
    obtain rfl := h.eq_nil he
    exact .finished he

/-- What follows a wish for the end: what is let through, and then at most the last notice.

**Proof sketch.** After the announcement of a boundary or of an instruction no instruction has just
been concluded, so that the first notice is the only exception. -/
lemma after_asked {d : Delivery} {r : Reaction} (h : Heeded (later ++ (d, r) :: T))
    (hr : r.terminate = true) :
    ∃ last overrun : Transcript, later = last ++ overrun ∧ Final last ∧ Overrun d overrun := by
  have hT : ¬Unended ((d, r) :: T) := not_unended (e := (d, r)) hr List.mem_cons_self
  rcases List.eq_nil_or_concat' later with rfl | ⟨rest, e, rfl⟩
  · exact ⟨[], [], rfl, .nil, .nil⟩
  · rw [List.append_assoc, List.singleton_append] at h
    have hrest : e.1.notice = .advanced ∨ (∃ i, e.1.notice = .executing i) → Final rest := by
      intro he
      refine h.final (not_unended (e := (d, r)) hr (by simp)) fun i hi => ?_
      obtain ⟨j, hj⟩ := notice_of_concludes hi
      rcases he with he | ⟨_, he⟩ <;> simp [he] at hj
    have hp := h.permits
    generalize hn : e.1.notice = n at hp
    cases hp with
    | unended hu => exact absurd hu hT
    | finished =>
      obtain rfl := h.eq_nil hn
      exact ⟨[e], [], rfl, .finished hn, .nil⟩
    | boundary hc =>
      obtain ⟨i, hi⟩ := notice_of_concludes hc
      exact ⟨rest, [e], rfl, hrest (.inl hn), .boundary hi hn⟩
    | instruction hc =>
      obtain ⟨i, hi⟩ := notice_of_concludes hc
      exact ⟨rest, [e], rfl, hrest (.inr ⟨_, hn⟩), .instruction hi hn⟩

end Heeded

end Transcript

namespace Search

open Transcript

variable {A : Audience L} {s t : Search (L × Transcript) κ}

/-- A transcribing audience has the notice and its own reaction at the head of its transcript. -/
lemma told_transcript (s : Search (L × Transcript) κ) (scene : Scene) (top : Option FrameId)
    (n : Notice) : (s.told A.transcribed scene top n).listeners.2 =
      (⟨s.view scene top, n⟩, (A.hear s.listeners.1 (s.view scene top) n).2) :: s.listeners.2 := rfl

/-- A search that has heeded the wish for its end so far: its flag is up if there is such a wish,
and all states that it has seen have been announced. -/
structure Heeds (s : Search (L × Transcript) κ) : Prop where
  heeded : Heeded s.listeners.2
  opened : Open s.listeners.2
  flagged : s.terminated = false → Unended s.listeners.2
  counted : s.seen.size = (Log.discovered (log s.listeners.2)).length

/-- What is permitted may be told, and the wish for the end raises the flag. -/
lemma Heeds.told_of {s₀ : Search (L × Transcript) κ} (h : s₀.Heeds) {n : Notice}
    (hl : s.listeners = s₀.listeners) (ht : s.terminated = s₀.terminated)
    (hp : Permits s₀.listeners.2 n) (hn : n ≠ .finished) (scene : Scene) (top : Option FrameId)
    (hc : s.seen.size = (Log.discovered (⟨s.view scene top, n⟩ :: log s.listeners.2)).length) :
    (s.told A.transcribed scene top n).Heeds where
  heeded := by
    rw [told_transcript, hl]
    exact .cons h.heeded h.opened hp
  opened := by
    rw [told_transcript, hl]
    exact List.forall_mem_cons.mpr ⟨hn, h.opened⟩
  flagged hf := by
    have hf : (s.terminated || (A.hear s.listeners.1 (s.view scene top) n).2.terminate) = false :=
      hf
    rw [Bool.or_eq_false_iff] at hf
    rw [told_transcript]
    refine List.forall_mem_cons.mpr ⟨hf.2, ?_⟩
    rw [hl]
    exact h.flagged (ht ▸ hf.1)
  counted := hc

/-- A notice that announces no boundary discovers nothing. -/
lemma Heeds.told (h : s.Heeds) (scene : Scene) (top : Option FrameId) {n : Notice}
    (hp : Permits s.listeners.2 n) (hn : n ≠ .finished) (ha : n ≠ .advanced) :
    (s.told A.transcribed scene top n).Heeds :=
  h.told_of rfl rfl hp hn scene top (by rw [Log.discovered_of_ne ha, h.counted])

/-- What a search keeps for itself beside the flag and the states does not matter. -/
lemma Heeds.congr (h : s.Heeds) (hl : t.listeners.2 = s.listeners.2) (hs : t.seen = s.seen)
    (ht : t.terminated = false → s.terminated = false) : t.Heeds where
  heeded := hl ▸ h.heeded
  opened := hl ▸ h.opened
  flagged hf := hl ▸ h.flagged (ht hf)
  counted := by rw [hl, hs, h.counted]

/-- Reports are not written down. -/
lemma Heeds.reported (h : s.Heeds) (hr : Exploration.Reported A.transcribed s t) :
    t.Heeds ∧ t.listeners.2 = s.listeners.2 := by
  induction hr with
  | refl => exact ⟨h, rfl⟩
  | report _ _ ih => exact ⟨ih.1.congr rfl rfl id, ih.2⟩

variable [DecidableEq κ] {scene : Scene} {top : Option FrameId} {b : Boundary} {key : κ}
  {r : Progress}

/-- A boundary that is permitted may be entered; its state is discovered when it is announced. -/
lemma Heeds.entered (h : s.Heeds) (hp : Permits s.listeners.2 .advanced) :
    (s.entered A.transcribed scene top b key).Heeds := by
  have henter := enter_eq s b key
  refine h.told_of (by rw [henter]) (by rw [henter]) hp (by simp) scene top ?_
  have hlog : (s.enter b key).listeners.2 = s.listeners.2 := by rw [henter]
  have hseen : (s.enter b key).seen = s.seenAfter key := by rw [henter]
  rw [hlog, hseen, Log.discovered]
  simp only [view, henter, decide_eq_true_eq]
  by_cases hk : key ∈ s.seen
  · rw [if_neg (not_not.mpr hk), seenAfter, if_pos hk, h.counted]
  · rw [if_pos hk, seenAfter, if_neg hk, Array.size_push, List.length_append, h.counted]
    rfl

/-- A boundary that is permitted may be reached. The path goes on from it only if nobody has asked
for the end. -/
lemma Heeds.advance (h : s.Heeds) (hp : Permits s.listeners.2 .advanced)
    (hadv : s.advance A.transcribed scene top b key = (t, r)) :
    t.Heeds ∧ (r = .onward → Unended t.listeners.2) := by
  have he : (s.entered A.transcribed scene top b key).Heeds := h.entered hp
  rcases advance_eq hadv with ⟨rfl, ht⟩ | ⟨limit, flag, hr, ht, rfl⟩
  · exact ⟨he, fun hr => he.flagged (ht hr)⟩
  · refine ⟨?_, fun h => absurd h hr⟩
    have hlimit : (s.limitedBy A.transcribed scene top b key limit).Heeds :=
      (he.congr (t := { s.entered A.transcribed scene top b key with constraint := some limit })
        rfl rfl id).told scene top (.unended (he.flagged ht)) (by simp) (by simp)
    exact hlimit.congr rfl rfl fun hf => (Bool.or_eq_false_iff.mp hf).1

/-- A boundary may be reached in the same way if it may have no fingerprint. -/
lemma Heeds.reach {fingerprint : Except Fault κ} (h : s.Heeds)
    (hp : Permits s.listeners.2 .advanced)
    (hr : s.reach A.transcribed scene top b fingerprint = (t, r)) :
    t.Heeds ∧ (r = .onward → Unended t.listeners.2) := by
  rcases reach_cases _ hr with ⟨f, -, rfl, rfl⟩ | ⟨key, -, hadv⟩
  · exact ⟨h, by simp⟩
  · exact h.advance hp hadv

end Search

namespace Exploration

open Transcript

variable {P : Program σ κ} {A : Audience L} {s t : Search (L × Transcript) κ}

/-! ## What a move delivers -/

/-- A search that has heeded the wish for its end so far, where it stands: nobody has asked for the
end while the program is running and its path is not over, and at a completed end the last notice
has been delivered. -/
def Heeding (s : Search (L × Transcript) κ) : Stage σ → Prop
  | .waiting => s.Heeds ∧ Unended s.listeners.2
  | .launching => s.Heeds
  | .executing _ w => s.Heeds ∧ (w.stopping = false → Unended s.listeners.2)
  | .ended e =>
    Heeded s.listeners.2 ∧ s.seen.size = (Log.discovered (log s.listeners.2)).length ∧
      (e = .completed → ¬Open s.listeners.2)

/-- Wherever a search stands, nothing has been delivered that was not permitted. -/
lemma Heeding.heeded {stage : Stage σ} (h : Heeding s stage) : Heeded s.listeners.2 := by
  cases stage with
  | waiting | executing => exact h.1.heeded
  | launching => exact Search.Heeds.heeded h
  | ended => exact h.1

/-- Wherever a search stands, the states that it has seen are those that it has announced. -/
lemma Heeding.size_seen {stage : Stage σ} (h : Heeding s stage) :
    s.seen.size = (Log.discovered (log s.listeners.2)).length := by
  cases stage with
  | waiting | executing => exact h.1.counted
  | launching => exact Search.Heeds.counted h
  | ended => exact h.2.1

/-- A search may be over at any time, but for the last notice. -/
lemma heeding_ended (h : s.Heeds) {e : Exit} (he : e ≠ .completed) :
    Heeding s (.ended e : Stage σ) :=
  ⟨h.heeded, h.counted, fun hc => absurd hc he⟩

/-- A path may be over at any time. -/
lemma heeding_stopPath (h : s.Heeds) (p : σ) (w : Walk) (failure : Option Fault) :
    Heeding (stopPath P s p w failure).1 (stopPath P s p w failure).2 :=
  ⟨h, fun hw => by simp at hw⟩

/-- The last notice may be delivered at any time. -/
lemma heeding_finish (h : s.Heeds) :
    Heeding (finish A.transcribed s : _ × Stage σ).1 (finish A.transcribed s : _ × Stage σ).2 := by
  have hheeded : Heeded (s.told A.transcribed s.outside none .finished).listeners.2 :=
    .cons h.heeded h.opened .finished
  have hcounted : (s.told A.transcribed s.outside none .finished).seen.size =
      (Log.discovered (log (s.told A.transcribed s.outside none .finished).listeners.2)).length :=
    h.counted
  unfold finish
  cases hn : s.notify A.transcribed s.outside none .finished with
  | mk t f =>
    obtain rfl : t = s.told A.transcribed s.outside none .finished := Search.eq_told _ hn
    cases f with
    | some f => exact ⟨hheeded, hcounted, by simp⟩
    | none => exact ⟨hheeded, hcounted, fun _ ho => ho _ List.mem_cons_self rfl⟩

/-- Boundaries are left one after another as long as nobody asks for the end. -/
lemma heeds_backtrackFrom {path : List PathEntry} : ∀ {s t : Search (L × Transcript) κ}
    {r : Retreat}, s.Heeds → s.terminated = false →
      s.backtrackFrom A.transcribed path = (t, r) → t.Heeds := by
  induction path with
  | nil =>
    intro s t r h _ hb
    obtain ⟨rfl, -⟩ := Prod.mk.inj hb
    exact h
  | cons e rest ih =>
    intro s t r h ht hb
    simp only [Search.backtrackFrom] at hb
    rw [← Search.back] at hb
    cases hn : (s.back rest).notify A.transcribed s.outside none .backtracked with
    | mk u f =>
      obtain rfl : u = s.popped A.transcribed rest := Search.eq_told _ hn
      have hu : (s.popped A.transcribed rest).Heeds :=
        (h.congr (t := s.back rest) rfl rfl id).told s.outside none (.unended (h.flagged ht))
          (by simp) (by simp)
      rw [hn] at hb
      cases f with
      | some f =>
        obtain ⟨rfl, -⟩ := Prod.mk.inj hb
        exact hu
      | none =>
        simp only at hb
        split at hb
        · obtain ⟨rfl, -⟩ := Prod.mk.inj hb
          exact hu
        · rename_i hterm
          cases rest with
          | nil =>
            obtain ⟨rfl, -⟩ := Prod.mk.inj hb
            exact hu
          | cons e' below =>
            simp only at hb
            split at hb
            · obtain ⟨rfl, -⟩ := Prod.mk.inj hb
              exact hu.congr rfl rfl id
            · exact ih hu (by simpa using hterm) hb

/-- After a path the search goes back, or is over. -/
lemma heeding_afterPath (h : s.Heeds) :
    Heeding (afterPath A.transcribed s : _ × Stage σ).1
      (afterPath A.transcribed s : _ × Stage σ).2 := by
  have hcount : ({ s with paths := s.paths + 1 } : Search (L × Transcript) κ).Heeds :=
    h.congr rfl rfl id
  simp only [afterPath]
  split
  · exact heeding_finish hcount
  · rename_i hterm
    cases hb : ({ s with paths := s.paths + 1 } : Search (L × Transcript) κ).backtrack
        A.transcribed with
    | mk t r =>
      have ht : t.Heeds := heeds_backtrackFrom hcount (by simpa using hterm) hb
      cases r with
      | failed f => exact heeding_ended ht (by simp)
      | done => exact heeding_finish ht
      | resume => exact ht

/-- The conclusion of an instruction may be announced as long as nobody has asked for the end. -/
lemma heeds_concluded (h : s.Heeds) (hu : Unended s.listeners.2) (scene : Scene)
    (top : Option FrameId) (previous next : Option Instruction) :
    (concluded A.transcribed s scene top previous next).Heeds := by
  cases previous with
  | none => exact h
  | some e =>
    exact (h.congr (t := s.unasked) rfl rfl id).told scene top (.unended hu) (by simp) (by simp)

variable [DecidableEq κ]

/-- Before an instruction the last one is concluded, and a boundary may be reached. If the path goes
on, the end has not been asked for before the conclusion. -/
lemma heeds_concludeStep {p : σ} {w : Walk} {i : Instruction} {r : Progress} (h : s.Heeds)
    (hu : Unended s.listeners.2) (hc : concludeStep P A.transcribed s p w i = (t, r)) :
    t.Heeds ∧ (r = .onward → Permits t.listeners.2 (.executing i)) := by
  have hheeds := heeds_concluded (A := A) h hu (P.scene p) w.frame w.previous (some i)
  -- both notices that may follow are permitted
  have hpermits : ∀ n, n = .advanced ∨ n = .executing i →
      Permits
        (concluded A.transcribed s (P.scene p) w.frame w.previous (some i)).listeners.2 n := by
    intro n hn
    cases w.previous with
    | none => exact .unended hu
    | some e =>
      have hconc : Concludes (concluded A.transcribed s (P.scene p) w.frame (some e)
          (some i)).listeners.2 i := ⟨_, _, _, _, rfl, hu⟩
      rcases hn with rfl | rfl
      · exact .boundary hconc
      · exact .instruction hconc
  rcases concludeStep_eq (P := P) (A := A.transcribed) s p w i with ⟨r', -, heq⟩ | ⟨-, heq⟩
  · rw [heq] at hc
    obtain ⟨rfl, -⟩ := Prod.mk.inj hc
    exact ⟨hheeds, fun _ => hpermits _ (.inr rfl)⟩
  · rw [heq] at hc
    obtain ⟨ht, hon⟩ := (hheeds.congr
      (t := (concluded A.transcribed s (P.scene p) w.frame w.previous (some i)).unasked)
        rfl rfl id).reach (hpermits _ (.inl rfl)) hc
    exact ⟨ht, fun hr => .unended (hon hr)⟩

/-- Before an instruction. -/
lemma heeding_onInstruction {p : σ} {w : Walk} (h : s.Heeds)
    (hu : w.stopping = false → Unended s.listeners.2) (i : Instruction) :
    Heeding (onInstruction P A.transcribed s p w i).1
      (onInstruction P A.transcribed s p w i).2 := by
  unfold onInstruction
  split
  · exact ⟨h, hu⟩
  · rename_i hw
    have hu : Unended s.listeners.2 := hu (by simpa using hw)
    simp only
    split
    · exact ⟨h, fun _ => hu⟩
    · split
      · rename_i hc
        exact heeding_stopPath (heeds_concludeStep h hu hc).1 _ _ _
      · rename_i hc
        exact heeding_stopPath (heeds_concludeStep h hu hc).1 _ _ _
      · rename_i t hc
        obtain ⟨ht, hon⟩ := heeds_concludeStep h hu hc
        cases hn : t.notify A.transcribed (P.scene p) (some i.frame) (.executing i) with
        | mk u f =>
          obtain rfl : u = t.told A.transcribed (P.scene p) (some i.frame) (.executing i) :=
            Search.eq_told _ hn
          have hu := ht.told (A := A) (P.scene p) (some i.frame) (hon rfl) (by simp) (by simp)
          cases f with
          | some f => exact heeding_stopPath hu _ _ _
          | none =>
            simp only
            split
            · exact heeding_stopPath hu _ _ _
            · rename_i hterm
              exact ⟨hu, fun _ => hu.flagged (by simpa using hterm)⟩

/-- At a choice. -/
lemma heeding_onChoice {p : σ} {w : Walk} (h : s.Heeds)
    (hu : w.stopping = false → Unended s.listeners.2) (n : Int) :
    Heeding (onChoice P A.transcribed s p w n).1 (onChoice P A.transcribed s p w n).2 := by
  unfold onChoice
  split
  · exact ⟨h, hu⟩
  · split
    · exact ⟨h, hu⟩
    · rename_i hw
      have hu : Unended s.listeners.2 := hu (by simpa using hw)
      split
      · simp only
        split
        · cases hn : s.notify A.transcribed (P.scene p) w.frame .restored with
          | mk t f =>
            obtain rfl : t = s.told A.transcribed (P.scene p) w.frame .restored :=
              Search.eq_told _ hn
            have ht := h.told (A := A) (P.scene p) w.frame (.unended hu) (n := .restored)
              (by simp) (by simp)
            cases f with
            | some f => exact heeding_stopPath ht _ _ _
            | none =>
              simp only
              split
              · exact heeding_stopPath ht _ _ _
              · rename_i hterm
                exact ⟨ht, fun _ => ht.flagged (by simpa using hterm)⟩
        · exact ⟨h, fun _ => hu⟩
      · simp only
        split
        · rename_i hreach
          exact heeding_stopPath (h.reach (.unended hu) hreach).1 _ _ _
        · rename_i hreach
          exact heeding_stopPath (h.reach (.unended hu) hreach).1 _ _ _
        · rename_i hreach
          obtain ⟨ht, hon⟩ := h.reach (.unended hu) hreach
          exact ⟨ht, fun _ => hon rfl⟩

/-- At the end of the program the last instruction is concluded, and an end state is reached unless
somebody has asked for the end by then. -/
lemma heeds_finishPath {p : σ} {w : Walk} {f : Option Fault} (h : s.Heeds)
    (hu : Unended s.listeners.2) (hf : finishPath P A.transcribed s p w = (t, f)) : t.Heeds := by
  have hheeds := heeds_concluded (A := A) h hu (P.scene p) none w.previous none
  obtain ⟨f', heq⟩ := finishPath_eq (P := P) (A := A.transcribed) s p w
  rw [heq] at hf
  cases f' with
  | some f' =>
    obtain ⟨rfl, -⟩ := Prod.mk.inj hf
    exact hheeds
  | none =>
    have hfree := hheeds.congr
      (t := (concluded A.transcribed s (P.scene p) none w.previous none).unasked) rfl rfl id
    simp only at hf
    split at hf
    · obtain ⟨rfl, -⟩ := Prod.mk.inj hf
      exact hfree
    · rename_i hterm
      have hperm := hfree.flagged (by simpa using hterm)
      split at hf <;>
      · rename_i hreach
        obtain ⟨rfl, -⟩ := Prod.mk.inj hf
        exact (hfree.reach (.unended hperm) hreach).1

/-- At the end of an execution. -/
lemma heeding_onEnd {p : σ} {w : Walk} (h : s.Heeds)
    (hu : w.stopping = false → Unended s.listeners.2) (ending : Ending) :
    Heeding (onEnd P A.transcribed s p w ending).1 (onEnd P A.transcribed s p w ending).2 := by
  by_cases hi : ∃ type message, ending = .interrupted type message
  · obtain ⟨type, message, rfl⟩ := hi
    have hs : ({ s with outside := P.scene p } : Search (L × Transcript) κ).Heeds :=
      h.congr rfl rfl id
    exact heeding_ended (σ := σ) hs (by simp)
  · have hi : ∀ type message, ending ≠ .interrupted type message :=
      fun type message h => hi ⟨type, message, h⟩
    obtain ⟨t, hrep, hend⟩ := onEnd_eq (P := P) (A := A.transcribed) s p w hi
    obtain ⟨ht, hlog⟩ := h.reported hrep
    rw [hend, endPath]
    split
    · exact heeding_ended ht (by simp)
    · split
      · exact heeding_afterPath ht
      · rename_i hstop
        have hw : w.stopping = false := by
          simp only [Bool.or_eq_true, not_or, Bool.not_eq_true] at hstop
          exact hstop.1
        have hu : Unended t.listeners.2 := hlog ▸ hu hw
        split
        · exact heeding_afterPath (ht.congr rfl rfl id)
        · split
          · rename_i hfin
            exact heeding_ended (heeds_finishPath ht hu hfin) (by simp)
          · rename_i hfin
            exact heeding_afterPath (heeds_finishPath ht hu hfin)

/-- Every move heeds the wish for the end.

**Proof sketch.** A path goes on only while the flag is down, which is to say that nobody has asked
for the end; whatever is told then is permitted. The two notices that are told without a look at
the flag follow the conclusion of an instruction, before which it was down. -/
theorem heeding_step (x : Exploration σ (L × Transcript) κ) (h : Heeding x.search x.stage) :
    Heeding (step P A.transcribed x).search (step P A.transcribed x).stage := by
  obtain ⟨s, stage, printed⟩ := x
  cases stage with
  | waiting =>
    obtain ⟨h, hu⟩ := h
    simp only [step, begin]
    cases hn : s.notify A.transcribed s.outside none .started with
    | mk t f =>
      obtain rfl : t = s.told A.transcribed s.outside none .started := Search.eq_told _ hn
      have ht := h.told (A := A) s.outside none (.unended hu) (n := .started) (by simp) (by simp)
      cases f with
      | some f => exact heeding_ended ht (by simp)
      | none => exact ht
  | launching =>
    have h : s.Heeds := h
    simp only [step, launch]
    split
    · exact heeding_finish h
    · rename_i hterm
      exact ⟨h.congr rfl rfl id, fun _ => h.flagged (by simpa using hterm)⟩
  | ended e => exact h
  | executing p w =>
    obtain ⟨h, hu⟩ := h
    cases hp : P.next p with
    | instruction i q => simpa only [step, hp] using heeding_onInstruction h hu i
    | choice n q => simpa only [step, hp] using heeding_onChoice h hu n
    | ended ending q => simpa only [step, hp] using heeding_onEnd h hu ending
    | effect e q =>
      simp only [step, hp]
      split
      · exact ⟨h, hu⟩
      · exact ⟨h, hu⟩
    | terminate q =>
      simp only [step, hp]
      exact ⟨h.congr rfl rfl (by simp), hu⟩
    | internal q | print text q =>
      simp only [step, hp]
      exact ⟨h, hu⟩

/-! ## Runs -/

section Runs

variable {name : String} {depthLimit maxStates : Option Int} {outside : Scene} {l : L}

variable (P A) in
/-- The search after a number of moves, with what has been delivered to its listeners and how they
reacted. -/
def transcribedAfter (name : String) (depthLimit maxStates : Option Int) (outside : Scene) (l : L)
    (n : Nat) : Exploration σ (L × Transcript) κ :=
  after P A.transcribed n (ofSearch (.new name depthLimit maxStates outside (l, [])))

/-- Every run heeds the wish for the end. -/
lemma heeding_after (n : Nat) :
    Heeding (transcribedAfter P A name depthLimit maxStates outside l n).search
      (transcribedAfter P A name depthLimit maxStates outside l n).stage := by
  unfold transcribedAfter
  induction n with
  | zero =>
    have hnil : (ofSearch (.new name depthLimit maxStates outside (l, [])) :
        Exploration σ (L × Transcript) κ).search.listeners.2 = [] := rfl
    exact ⟨⟨.nil, by simp [Open, hnil], fun _ => by simp [Unended, hnil], rfl⟩,
      by simp [Unended, hnil]⟩
  | succ n ih =>
    rw [after_succ]
    exact heeding_step _ ih

/-- The states that a search has seen are those that it has announced. -/
lemma size_seen (n : Nat) :
    (transcribedAfter P A name depthLimit maxStates outside l n).search.seen.size =
      (Log.discovered (log
        (transcribedAfter P A name depthLimit maxStates outside l n).search.listeners.2)).length :=
  (heeding_after n).size_seen

/-- What follows when a listener has asked for the end of the search in answer to a notice, in every
run. First comes what is let through: if the notice was the conclusion of an instruction that
another one follows, possibly one boundary or the announcement of that other instruction; after any
other notice, nothing. Then comes at most the last notice, and it does come if the run is completed.
No state is discovered but at the boundary that is let through.

**Proof sketch.** That the wish is heeded is an invariant of the moves, `heeding_step`. What it says
of the transcript is `Heeded.after_asked`. -/
theorem termination_heeded {n : Nat} {later earlier : Transcript} {d : Delivery} {r : Reaction}
    (h : (transcribedAfter P A name depthLimit maxStates outside l n).search.listeners.2 =
      later ++ (d, r) :: earlier)
    (hr : r.terminate = true) :
    ∃ last overrun : Transcript, later = last ++ overrun ∧ Overrun d overrun ∧ Final last ∧
      (transcribedAfter P A name depthLimit maxStates outside l n).search.seen.size =
        (Log.discovered (log (overrun ++ (d, r) :: earlier))).length ∧
      ((transcribedAfter P A name depthLimit maxStates outside l n).stage = .ended .completed →
        d.notice = .finished ∨ last ≠ []) := by
  have hinv : Heeding (transcribedAfter P A name depthLimit maxStates outside l n).search
      (transcribedAfter P A name depthLimit maxStates outside l n).stage := heeding_after n
  have hheeded := hinv.heeded
  rw [h] at hheeded
  obtain ⟨last, overrun, rfl, hlast, hover⟩ := hheeded.after_asked hr
  rw [List.append_assoc] at h
  refine ⟨last, overrun, rfl, hover, hlast, ?_, fun hc => ?_⟩
  · rw [size_seen, h, hlast.discovered_append]
  · -- the last notice is none of those before `d`, and none that is let through
    rw [hc] at hinv
    have hclosed := hinv.2.2 rfl
    rw [h] at hclosed
    by_contra hne
    rw [not_or, not_not] at hne
    obtain ⟨hd, rfl⟩ := hne
    have hearlier : Open earlier := by
      rw [List.append_assoc] at hheeded
      exact (hheeded.of_append.of_append).opened
    refine hclosed fun e he => ?_
    rw [List.nil_append, List.mem_append, List.mem_cons] at he
    rcases he with he | rfl | he
    · exact hover.opened e he
    · exact hd
    · exact hearlier e he

/-- The search through the throws of two coins with a listener that asks for the end at the first
boundary. -/
def coinsCutShort : Exploration (Nat × Nat) (Unit × Transcript) (Nat × Nat) :=
  transcribedAfter coins (Audience.hasty fun n => EventKind.ofNotice? n = some .advanced) "coins"
    none none ⟨.empty, .empty, #[]⟩ () 4

/-- After the first boundary of the coins only the last notice follows. -/
theorem termination_heeded_coins :
    ∃ (later earlier : Transcript) (d : Delivery) (r : Reaction),
      coinsCutShort.search.listeners.2 = later ++ (d, r) :: earlier ∧ r.terminate = true ∧
      ∃ last overrun : Transcript, later = last ++ overrun ∧ Overrun d overrun ∧ Final last := by
  have hwishes : coinsCutShort.search.listeners.2.map (·.2.terminate) = [false, true, false] := by
    decide +kernel
  obtain ⟨e, later, h, -, hlater⟩ := List.map_eq_cons_iff.mp hwishes
  obtain ⟨⟨d, r⟩, earlier, rfl, hr, -⟩ := List.map_eq_cons_iff.mp hlater
  have h : coinsCutShort.search.listeners.2 = [e] ++ (d, r) :: earlier := h
  obtain ⟨last, overrun, hlater, hover, hlast, -⟩ := termination_heeded h hr
  exact ⟨[e], earlier, d, r, h, hr, last, overrun, hlater, hover, hlast⟩

end Runs

/-! ## What is let through -/

/-- A program that runs two instructions and ends. The configuration and the fingerprint are the
number of instructions that have run; a program that has been stopped has run three. -/
def march : Program Nat Nat where
  start _ := 0
  next c := if c < 2 then .instruction default c else .ended (if c = 2 then .normal else .stopped) c
  reply c r :=
    match r with
    | .proceed => c + 1
    | .stop => 3
    | _ => c
  scene _ := ⟨.empty, .empty, #[]⟩
  fingerprint _ c _ _ := .ok c

/-- The search of the march with a listener that asks for the end, and for a boundary, between the
two instructions. -/
def marchCutShort : Exploration Nat (Unit × Transcript) Nat :=
  transcribedAfter march (Audience.hasty Notice.isBetween) "march" none none
    ⟨.empty, .empty, #[]⟩ () 5

/-- After the end has been asked for between the two instructions of the march, a boundary is
announced nevertheless, and with it a new state is discovered. -/
theorem termination_overrun :
    ∃ (last earlier : Transcript) (e : Delivery × Reaction) (d : Delivery) (r : Reaction),
      marchCutShort.search.listeners.2 = last ++ e :: (d, r) :: earlier ∧ r.terminate = true ∧
      e.1.notice = .advanced ∧
      marchCutShort.search.seen.size = (Log.discovered (log ((d, r) :: earlier))).length + 1 := by
  have hevents : marchCutShort.search.listeners.2.map
      (fun x => (EventKind.ofNotice? x.1.notice, x.2.terminate)) =
        [(some .finished, false), (some .advanced, false), (none, true), (none, false),
          (some .started, false)] := by decide +kernel
  have hseen : marchCutShort.search.seen.size = 1 := by decide +kernel
  have hbefore : (Log.discovered (log (marchCutShort.search.listeners.2.drop 2))).length = 0 := by
    decide +kernel
  obtain ⟨f, T, h, -, hT⟩ := List.map_eq_cons_iff.mp hevents
  obtain ⟨e, T, rfl, he, hT⟩ := List.map_eq_cons_iff.mp hT
  obtain ⟨⟨d, r⟩, T, rfl, hd, hT⟩ := List.map_eq_cons_iff.mp hT
  rw [h] at hbefore
  refine ⟨[f], T, e, d, r, h, (Prod.mk.inj hd).2, ?_, hseen.trans (congrArg (· + 1) hbefore.symm)⟩
  cases hn : e.1.notice with
  | advanced => rfl
  | _ => simp [hn, EventKind.ofNotice?] at he

end Exploration

end StateAtlas
