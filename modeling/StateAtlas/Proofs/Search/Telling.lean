import StateAtlas.Proofs.Search.Anchor

set_option autoImplicit false

/-!
# What the log of a search tells

Every notice is written down when it is delivered, so the log can be compared with the search at
every moment: it tells the path the search is on and the states it has seen, and it never speaks
of a state as known that it has not announced as new.

## Main definitions

* `StateAtlas.Search.Telling` — the log of a search tells its path and its states.

## Main results

* `StateAtlas.Exploration.telling_after` — the log of an undisturbed search is telling.
-/

namespace StateAtlas

variable {σ L κ : Type}

namespace Search

/-- The log of a search tells its path and the states it has seen, and no state is announced as
known before it has been announced as new. -/
structure Telling (s : Search (L × Log) κ) : Prop where
  path : Log.path s.listeners.2 = s.path.map fun e => (e.state : Int)
  discovered : Log.discovered s.listeners.2 = (List.range s.seen.size).map fun i : Nat => (i : Int)
  recognized : ∀ d earlier, d :: earlier <:+ s.listeners.2 → d.notice = .advanced →
    d.view.isNew = false → d.view.stateId ∈ Log.discovered earlier

namespace Telling

variable {A : Audience L} {s : Search (L × Log) κ}

/-- A notice that is neither of a boundary nor of a retreat tells nothing of the path. -/
lemma told (h : s.Telling) (scene : Scene) (top : Option FrameId) {n : Notice}
    (hn : Log.isIdle n = true ∨ ∃ i next, n = .executed i next) :
    (s.told A.recorded scene top n).Telling := by
  have hadv : n ≠ .advanced := by
    rintro rfl
    simp [Log.isIdle] at hn
  refine ⟨?_, ?_, ?_⟩
  · rw [told_log, told_path, ← h.path]
    rcases hn with hn | ⟨i, next, rfl⟩
    · exact Log.path_idle hn _ _
    · rfl
  · rw [told_log, told_seen, ← h.discovered]
    rcases hn with hn | ⟨i, next, rfl⟩
    · exact Log.discovered_idle hn _ _
    · rfl
  · intro d earlier hd hnot
    rw [told_log] at hd
    rcases List.suffix_cons_iff.mp hd with heq | hd
    · obtain ⟨rfl, -⟩ := List.cons.inj heq
      exact absurd hnot hadv
    · exact h.recognized d earlier hd hnot

/-- A boundary that is entered is told. -/
lemma entered [DecidableEq κ] (h : s.Telling) (scene : Scene) (top : Option FrameId) (b : Boundary)
    (key : κ) : (s.entered A.recorded scene top b key).Telling := by
  have hnew := arrival_isNew s scene top b key
  have hid := arrival_stateId s scene top b key
  refine ⟨?_, ?_, ?_⟩
  · rw [entered_log, entered_path, List.map_cons, ← h.path]
    simp [Log.path, arrival, view, enter_eq]
  · rw [entered_log, entered_seen, seenAfter]
    by_cases hk : key ∈ s.seen
    · rw [if_pos hk, ← h.discovered]
      simp [Log.discovered, arrival, view, enter_eq, hk]
    · rw [if_neg hk, Array.size_push, List.range_succ, List.map_append, ← h.discovered]
      simp [Log.discovered, arrival, view, enter_eq, hk, (identify_of_not_mem hk).1]
  · intro d earlier hd hnot hold
    rw [entered_log] at hd
    rcases List.suffix_cons_iff.mp hd with heq | hd
    · obtain ⟨rfl, rfl⟩ := List.cons.inj heq
      rw [hnew] at hold
      have hk : key ∈ s.seen := by simpa using hold
      obtain ⟨hi, -⟩ := identify_of_mem hk
      rw [hid, h.discovered]
      exact List.mem_map.mpr ⟨_, List.mem_range.mpr hi, rfl⟩
    · exact h.recognized d earlier hd hnot hold

/-- The end of a path is told. -/
lemma halts [DecidableEq κ] (h : s.Telling) {scene : Scene} {top : Option FrameId} {b : Boundary}
    {key : κ} {s' : Search (L × Log) κ} (hh : s.Halts A.recorded scene top b key s') :
    s'.Telling := by
  have he := h.entered (A := A) scene top b key
  cases hh with
  | matched => exact he
  | limited =>
    have hc : ({ s.entered A.recorded scene top b key with constraint := some "depth" } :
        Search (L × Log) κ).Telling := ⟨he.path, he.discovered, he.recognized⟩
    exact hc.told _ _ (.inl rfl)

/-- The retreat from a boundary is told. -/
lemma popped (h : s.Telling) {e : PathEntry} {rest : List PathEntry} (hp : s.path = e :: rest) :
    (s.popped A.recorded rest).Telling := by
  refine ⟨?_, ?_, ?_⟩
  · rw [popped_log, popped_path, Log.path, h.path, hp]
    rfl
  · rw [popped_log, popped_seen, ← h.discovered]
    rfl
  · intro d earlier hd hnot
    rw [popped_log] at hd
    rcases List.suffix_cons_iff.mp hd with heq | hd
    · obtain ⟨rfl, -⟩ := List.cons.inj heq
      simp at hnot
    · exact h.recognized d earlier hd hnot

/-- Going back is told. -/
lemma retreats {s t : Search (L × Log) κ} {r : Retreat} (hr : s.Retreats A.recorded t r) :
    s.Telling → t.Telling := by
  induction hr with
  | idle => exact id
  | last hp => exact fun h => h.popped hp
  | resume hp _ =>
    intro h
    have hpop := h.popped (A := A) hp
    exact ⟨by simpa [PathEntry.nextChoice] using hpop.path, hpop.discovered, hpop.recognized⟩
  | further hp _ _ ih => exact fun h => ih (h.popped hp)

end Telling

end Search

namespace Exploration

variable {P : Program σ κ} {A : Audience L}

/-- The announcement of the last instruction tells nothing of the path. -/
lemma concluded_telling {s : Search (L × Log) κ} (h : s.Telling) (scene : Scene)
    (top : Option FrameId) (previous next : Option Instruction) :
    (concluded A.recorded s scene top previous next).Telling := by
  cases previous with
  | none => exact h
  | some e =>
    have hu : s.unasked.Telling := ⟨h.path, h.discovered, h.recognized⟩
    exact hu.told _ _ (.inr ⟨_, _, rfl⟩)

/-- A path that is left is told. -/
lemma leaves_telling {s t : Search (L × Log) κ} {stage : Stage σ}
    (hl : Leaves A.recorded s t stage) (h : s.Telling) : t.Telling := by
  have hc : ({ s with paths := s.paths + 1 } : Search (L × Log) κ).Telling :=
    ⟨h.path, h.discovered, h.recognized⟩
  cases hl with
  | resume hr => exact Search.Telling.retreats hr hc
  | done hr => exact (Search.Telling.retreats hr hc).told _ _ (.inl rfl)

variable [DecidableEq κ]

/-- A turn keeps a log telling. -/
lemma telling_turn {s s' : Search (L × Log) κ} {stage stage' : Stage σ}
    (hT : Turn P A.recorded s stage s' stage') (h : s.Telling) : s'.Telling := by
  have unasked : ∀ {t : Search (L × Log) κ}, t.Telling → t.unasked.Telling := fun h =>
    ⟨h.path, h.discovered, h.recognized⟩
  cases hT with
  | begin => exact h.told _ _ (.inl rfl)
  | launch => exact unasked h
  | restore => exact h.told _ _ (.inl rfl)
  | instruct => exact (concluded_telling h _ _ _ _).told _ _ (.inl rfl)
  | request _ _ _ _ ht =>
    subst ht
    exact ((unasked (concluded_telling h _ _ _ _)).entered _ _ _ _).told _ _ (.inl rfl)
  | requestHalt _ _ _ _ ht hh =>
    subst ht
    exact (unasked (concluded_telling h _ _ _ _)).halts hh
  | choose => exact h.entered _ _ _ _
  | chooseHalt _ _ _ _ hh => exact h.halts hh
  | leave _ _ _ hs hl =>
    obtain ⟨r, rfl⟩ := hs.eq_recorded
    exact leaves_telling hl ⟨h.path, h.discovered, h.recognized⟩
  | finish _ _ _ _ _ _ hs hu hl =>
    subst hu
    obtain ⟨r, rfl⟩ := hs.eq_recorded
    have hr : ({ s with listeners := (r, s.listeners.2) } : Search (L × Log) κ).Telling :=
      ⟨h.path, h.discovered, h.recognized⟩
    exact leaves_telling hl ((unasked (concluded_telling hr _ _ _ _)).entered _ _ _ _)
  | _ => exact h

/-- The log of an undisturbed search is telling. -/
theorem telling_after {name : String} {depthLimit maxStates : Option Int} {outside : Scene}
    {l : L} {n : Nat}
    (h : (after P A.recorded n (fresh name depthLimit maxStates outside l)).Undisturbed) :
    (after P A.recorded n (fresh name depthLimit maxStates outside l)).search.Telling := by
  induction n with
  | zero => exact ⟨rfl, rfl, by simp [fresh, ofSearch, Search.new]⟩
  | succ n ih =>
    have hn := undisturbed_of_le orderly_fresh (Nat.le_succ n) h
    rw [after_succ] at h ⊢
    exact telling_turn (turn_of_undisturbed h) (ih hn)

end Exploration

end StateAtlas
