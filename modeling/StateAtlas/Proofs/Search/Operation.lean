import Mathlib.Data.List.Nodup
import StateAtlas.Proofs.Search.Log
import StateAtlas.Search.Run

set_option autoImplicit false

/-!
# Laws of the operations of a search

What a notice, a boundary and a retreat do to a search, as long as nobody ends the search and no
listener fails.

## Main definitions

* `StateAtlas.PathEntry.choices` — the alternatives followed on a path.
* `StateAtlas.Search.told` — the search after a notice.
* `StateAtlas.Search.entered` — the search after a boundary has been announced.
* `StateAtlas.Search.Continues`, `StateAtlas.Search.Halts` — whether the path goes on from there.
* `StateAtlas.Search.popped` — the search after the last boundary has been left.
* `StateAtlas.Search.Retreats` — leaving boundaries up to one with an alternative left.

## Main results

* `StateAtlas.Search.advance_cases` — a boundary is entered and the path goes on or halts.
* `StateAtlas.Search.backtrack_cases` — going back is a sequence of single retreats.
-/

namespace StateAtlas

/-- The number of alternatives kept on the path for a boundary. -/
def Boundary.options : Boundary → Nat
  | .choice options => options
  | _ => 0

/-- The alternatives followed on a path, the last boundary of which comes first. -/
def PathEntry.choices : List PathEntry → List Nat
  | [] => []
  | e :: below => choices below ++ if e.options = 0 then [] else [e.choice]

namespace Search

variable {L κ : Type} (A : Audience L)

/-- The choices to be repeated are the alternatives followed on the path. -/
lemma replay_eq (s : Search L κ) : s.replay = PathEntry.choices s.path := by
  rw [replay]
  induction s.path with
  | nil => rfl
  | cons e below ih =>
    by_cases he : e.options = 0 <;> simp [PathEntry.choices, he] at ih ⊢ <;> exact ih

/-! ## Notices -/

/-- The search after a notice. -/
def told (s : Search L κ) (scene : Scene) (top : Option FrameId) (n : Notice) : Search L κ :=
  (s.notify A scene top n).1

section Told

variable (s : Search L κ) (scene : Scene) (top : Option FrameId) (n : Notice)

@[simp] lemma told_name : (s.told A scene top n).name = s.name := rfl
@[simp] lemma told_path : (s.told A scene top n).path = s.path := rfl
@[simp] lemma told_seen : (s.told A scene top n).seen = s.seen := rfl
@[simp] lemma told_stateId : (s.told A scene top n).stateId = s.stateId := rfl
@[simp] lemma told_isNew : (s.told A scene top n).isNew = s.isNew := rfl
@[simp] lemma told_isEnd : (s.told A scene top n).isEnd = s.isEnd := rfl
@[simp] lemma told_depthLimit : (s.told A scene top n).depthLimit = s.depthLimit := rfl
@[simp] lemma told_maxStates : (s.told A scene top n).maxStates = s.maxStates := rfl
@[simp] lemma told_outside : (s.told A scene top n).outside = s.outside := rfl
@[simp] lemma told_constraint : (s.told A scene top n).constraint = s.constraint := rfl
@[simp] lemma told_paths : (s.told A scene top n).paths = s.paths := rfl

/-- A recording audience has the notice at the head of its log. -/
@[simp] lemma told_log (s : Search (L × Log) κ) :
    (s.told A.recorded scene top n).listeners.2 = ⟨s.view scene top, n⟩ :: s.listeners.2 := rfl

variable {s scene top n}

/-- A notice that leaves the search unterminated found it unterminated. -/
lemma terminated_of_told (h : (s.told A scene top n).terminated = false) :
    s.terminated = false := by
  simp only [told, notify, Bool.or_eq_false_iff] at h
  exact h.1

/-- After a notice the search is told of it, whether or not a listener failed. -/
lemma eq_told {s' : Search L κ} {f : Option Fault} (h : s.notify A scene top n = (s', f)) :
    s' = s.told A scene top n := by
  rw [told, h]

end Told

/-- The search when no listener wants the transition to end. -/
def unasked (s : Search L κ) : Search L κ := { s with breakReason := none }

section Unasked

variable (s : Search L κ)

@[simp] lemma unasked_path : s.unasked.path = s.path := rfl
@[simp] lemma unasked_seen : s.unasked.seen = s.seen := rfl
@[simp] lemma unasked_terminated : s.unasked.terminated = s.terminated := rfl
@[simp] lemma unasked_listeners : s.unasked.listeners = s.listeners := rfl
@[simp] lemma unasked_depthLimit : s.unasked.depthLimit = s.depthLimit := rfl
@[simp] lemma unasked_maxStates : s.unasked.maxStates = s.maxStates := rfl
@[simp] lemma unasked_paths : s.unasked.paths = s.paths := rfl

end Unasked

/-! ## Boundaries -/

section Boundaries

variable [DecidableEq κ] (s : Search L κ) (scene : Scene) (top : Option FrameId) (b : Boundary)
  (key : κ)

/-- The number of the state with a fingerprint, known or about to be discovered. -/
def identify : Nat := (s.seen.findIdx? (· = key)).getD s.seen.size

/-- The fingerprints seen once a boundary has been entered. -/
def seenAfter : Array κ := if key ∈ s.seen then s.seen else s.seen.push key

variable {s key}

/-- A fingerprint that has been seen has the place at which it lies. -/
lemma identify_of_mem (h : key ∈ s.seen) : ∃ hi : s.identify key < s.seen.size,
    s.seen[s.identify key] = key ∧ s.seen.findIdx? (· = key) = some (s.identify key) := by
  cases hf : s.seen.findIdx? (· = key) with
  | none =>
    rw [Array.findIdx?_eq_none_iff] at hf
    simpa using hf key h
  | some i =>
    obtain ⟨hi, hk, -⟩ := Array.findIdx?_eq_some_iff_getElem.mp hf
    have hid : s.identify key = i := by rw [identify, hf]; rfl
    subst hid
    exact ⟨hi, by simpa using hk, rfl⟩

/-- A fingerprint that has not been seen gets the next number. -/
lemma identify_of_not_mem (h : key ∉ s.seen) :
    s.identify key = s.seen.size ∧ s.seen.findIdx? (· = key) = none := by
  have hf : s.seen.findIdx? (· = key) = none := by
    rw [Array.findIdx?_eq_none_iff]
    intro x hx
    simpa using fun hxk : x = key => h (hxk ▸ hx)
  exact ⟨by rw [identify, hf]; rfl, hf⟩

/-- After a boundary has been entered, its state has its fingerprint. -/
lemma getElem?_seenAfter_identify : (s.seenAfter key)[s.identify key]? = some key := by
  by_cases h : key ∈ s.seen
  · obtain ⟨hi, hk, -⟩ := identify_of_mem h
    rw [seenAfter, if_pos h, Array.getElem?_eq_getElem hi, hk]
  · rw [seenAfter, if_neg h, (identify_of_not_mem h).1]
    simp

/-- Entering a boundary changes no fingerprint that was seen before. -/
lemma getElem?_seenAfter {i : Nat} {k : κ} (h : s.seen[i]? = some k) :
    (s.seenAfter key)[i]? = some k := by
  rw [seenAfter]
  split
  · exact h
  · obtain ⟨hi, -⟩ := Array.getElem?_eq_some_iff.mp h
    rw [Array.getElem?_push_lt hi, ← Array.getElem?_eq_getElem hi, h]

/-- No fingerprint is added twice. -/
lemma nodup_seenAfter (h : s.seen.toList.Nodup) : (s.seenAfter key).toList.Nodup := by
  rw [seenAfter]
  split
  · exact h
  · rename_i hk
    rw [Array.toList_push, List.nodup_append]
    refine ⟨h, by simp, ?_⟩
    intro a ha b hb hab
    rw [List.mem_singleton] at hb
    exact hk (by simpa [hab, hb] using ha)

/-- The number of a state is the place of its fingerprint. -/
lemma identify_of_getElem? (h : s.seen.toList.Nodup) {i : Nat} {k : κ}
    (hk : s.seen[i]? = some k) : s.identify k = i := by
  obtain ⟨hi, hik⟩ := Array.getElem?_eq_some_iff.mp hk
  obtain ⟨hj, hjk, -⟩ := identify_of_mem (s := s) (Array.mem_of_getElem? hk)
  have heq : s.seen.toList[s.identify k] = s.seen.toList[i] := by
    rw [Array.getElem_toList, Array.getElem_toList, hjk, hik]
  exact h.getElem_inj_iff.mp heq

variable (s key)

/-- What entering a boundary does: the boundary comes on top of the path, and its fingerprint is
seen. -/
lemma enter_eq : s.enter b key =
    { s with
      stateId := s.identify key
      isNew := decide (key ∉ s.seen)
      isEnd := decide (b = .finished)
      path := ⟨s.identify key, b.options, 0⟩ :: s.path
      seen := s.seenAfter key } := by
  by_cases h : key ∈ s.seen
  · obtain ⟨-, -, hf⟩ := identify_of_mem h
    simp only [enter, hf, seenAfter, not_true_eq_false, decide_false, h]
    cases b <;> rfl
  · obtain ⟨hi, hf⟩ := identify_of_not_mem h
    simp only [enter, hf, seenAfter, hi, h, not_false_eq_true, decide_true]
    cases b <;> rfl

/-- The search after a boundary has been announced. -/
def entered : Search L κ := (s.enter b key).told A scene top .advanced

/-- The search after a boundary has been announced and the limit on the depth with it. -/
def limited : Search L κ :=
  { s.entered A scene top b key with constraint := some "depth" }.told A scene top .constraintHit

@[simp] lemma entered_path : (s.entered A scene top b key).path =
    ⟨s.identify key, b.options, 0⟩ :: s.path := by
  simp [entered, enter_eq]

@[simp] lemma entered_seen : (s.entered A scene top b key).seen = s.seenAfter key := by
  simp [entered, enter_eq]

@[simp] lemma entered_paths : (s.entered A scene top b key).paths = s.paths := by
  simp [entered, enter_eq]

@[simp] lemma entered_depthLimit :
    (s.entered A scene top b key).depthLimit = s.depthLimit := by
  simp [entered, enter_eq]

@[simp] lemma entered_maxStates : (s.entered A scene top b key).maxStates = s.maxStates := by
  simp [entered, enter_eq]

@[simp] lemma limited_path : (s.limited A scene top b key).path =
    ⟨s.identify key, b.options, 0⟩ :: s.path := by
  simp [limited]

@[simp] lemma limited_seen : (s.limited A scene top b key).seen = s.seenAfter key := by
  simp [limited]

/-- The delivery of a boundary. -/
def arrival : Delivery := ⟨(s.enter b key).view scene top, .advanced⟩

@[simp] lemma arrival_stateId : (s.arrival scene top b key).view.stateId = s.identify key := by
  simp [arrival, view, enter_eq]

@[simp] lemma arrival_isNew :
    (s.arrival scene top b key).view.isNew = decide (key ∉ s.seen) := by
  simp [arrival, view, enter_eq]

@[simp] lemma arrival_isEnd :
    (s.arrival scene top b key).view.isEnd = decide (b = .finished) := by
  simp [arrival, view, enter_eq]

lemma entered_log (s : Search (L × Log) κ) :
    (s.entered A.recorded scene top b key).listeners.2 =
      s.arrival scene top b key :: s.listeners.2 := by
  simp [entered, enter_eq, arrival]

/-- The path goes on from a boundary: its state is new and no end state, and no limit is hit. -/
structure Continues : Prop where
  unseen : key ∉ s.seen
  unfinished : b ≠ .finished
  shallow : reached s.depthLimit (s.depth + 1) = false
  few : reached s.maxStates (s.seen.size + 1) = false

/-- The path ends at a boundary, and the search is another one then: at a state seen before or an
end state, or at the limit on the depth. -/
inductive Halts : Search L κ → Prop
  | matched (h : key ∈ s.seen ∨ b = .finished) : Halts (s.entered A scene top b key)
  | limited (hk : key ∉ s.seen) (hb : b ≠ .finished)
      (hd : reached s.depthLimit (s.depth + 1) = true) : Halts (s.limited A scene top b key)

variable {s key scene top b}

/-- Entering a boundary keeps the flag that ends the search. -/
lemma terminated_of_entered (h : (s.entered A scene top b key).terminated = false) :
    s.terminated = false := by
  simpa [enter_eq] using terminated_of_told A h

variable {A} in
/-- A boundary at which the path ends keeps the flag that ends the search. -/
lemma Halts.terminated_of {s' : Search L κ} (h : s.Halts A scene top b key s')
    (ht : s'.terminated = false) : s.terminated = false := by
  cases h with
  | matched => exact terminated_of_entered A ht
  | limited =>
    exact terminated_of_entered A
      (terminated_of_told A (s := { s.entered A scene top b key with constraint := some "depth" })
        ht)

variable {A} in
/-- The path of a search that halts at a boundary has the boundary on top. -/
lemma Halts.path_eq {s' : Search L κ} (h : s.Halts A scene top b key s') :
    s'.path = ⟨s.identify key, b.options, 0⟩ :: s.path := by
  cases h with
  | matched => exact entered_path A s scene top b key
  | limited => exact limited_path A s scene top b key

variable {A} in
/-- A search that halts at a boundary has seen its fingerprint. -/
lemma Halts.seen_eq {s' : Search L κ} (h : s.Halts A scene top b key s') :
    s'.seen = s.seenAfter key := by
  cases h with
  | matched => exact entered_seen A s scene top b key
  | limited => exact limited_seen A s scene top b key

variable {A} in
/-- A search that halts at a boundary keeps its limits. -/
lemma Halts.depthLimit_eq {s' : Search L κ} (h : s.Halts A scene top b key s') :
    s'.depthLimit = s.depthLimit := by
  cases h with
  | matched => exact entered_depthLimit A s scene top b key
  | limited => exact entered_depthLimit A s scene top b key

/-- What is read off a log without regard to limits is the same after the boundary and after the
path has halted there. -/
lemma Halts.reading {A : Audience L} {s s' : Search (L × Log) κ} {α : Type}
    (h : s.Halts A.recorded scene top b key s') (f : Log → α)
    (hf : ∀ view log, f (⟨view, .constraintHit⟩ :: log) = f log) :
    f s'.listeners.2 = f (s.arrival scene top b key :: s.listeners.2) := by
  cases h with
  | matched => rw [entered_log]
  | limited => rw [Search.limited, told_log, hf, entered_log]

/-- A boundary without a fingerprint changes nothing; any other is entered. -/
lemma reach_cases {s' : Search L κ} {fingerprint : Except Fault κ} {r : Progress}
    (h : s.reach A scene top b fingerprint = (s', r)) :
    (∃ f, fingerprint = .error f ∧ s' = s ∧ r = .failed f) ∨
      ∃ k, fingerprint = .ok k ∧ s.advance A scene top b k = (s', r) := by
  cases fingerprint with
  | error f =>
    obtain ⟨rfl, rfl⟩ := Prod.mk.inj h
    exact .inl ⟨f, rfl, rfl, rfl⟩
  | ok k => exact .inr ⟨k, rfl, h⟩

/-- A boundary that is reached without a failure has a fingerprint. -/
lemma advance_of_reach {s' : Search L κ} {fingerprint : Except Fault κ} {r : Progress}
    (h : s.reach A scene top b fingerprint = (s', r)) (hr : ∀ f, r ≠ .failed f) :
    ∃ k, fingerprint = .ok k ∧ s.advance A scene top b k = (s', r) := by
  rcases reach_cases A h with ⟨f, -, -, hf⟩ | hk
  · exact absurd hf (hr f)
  · exact hk

/-- A boundary is entered, and then the path goes on or halts, unless the search is ended.

**Proof sketch.** The test for a known state, an end state or a limit is made on the search after
the announcement, whose flags, path and fingerprints are those of the entered search. The limit on
states ends the search, which the hypothesis excludes. -/
theorem advance_cases {s' : Search L κ} {r : Progress}
    (h : s.advance A scene top b key = (s', r)) (ht : s'.terminated = false)
    (hr : ∀ f, r ≠ .failed f) :
    (r = .onward ∧ s.Continues b key ∧ s' = s.entered A scene top b key) ∨
      (r = .halt ∧ s.Halts A scene top b key s') := by
  unfold advance at h
  cases hn : (s.enter b key).notify A scene top .advanced with
  | mk s₁ f =>
    have hs₁ : s₁ = s.entered A scene top b key := eq_told A hn
    rw [hn] at h
    cases f with
    | some f => simp only [Prod.mk.injEq] at h; exact absurd h.2.symm (hr f)
    | none =>
      simp only at h
      have hnew : s₁.isNew = decide (key ∉ s.seen) := by simp [hs₁, entered, enter_eq]
      have hend : s₁.isEnd = decide (b = .finished) := by simp [hs₁, entered, enter_eq]
      have hdepth : s₁.depth = s.depth + 1 := by simp [hs₁, depth]
      split at h
      · rename_i hc
        obtain ⟨rfl, rfl⟩ := Prod.mk.inj h
        refine .inr ⟨rfl, hs₁ ▸ .matched ?_⟩
        simpa [ht, hnew, hend] using hc
      · rename_i hc
        simp only [hnew, hend, Bool.or_eq_true, not_or, Bool.not_eq_true,
          Bool.not_eq_eq_eq_not, Bool.not_true, decide_eq_false_iff_not,
          decide_eq_true_eq] at hc
        obtain ⟨⟨hterm, hk⟩, hb⟩ := hc
        have hk : key ∉ s.seen := by simpa using hk
        split at h
        · -- the limit on states ends the search
          exfalso
          split at h
          · simp only [Prod.mk.injEq] at h; exact hr _ h.2.symm
          · simp only [Prod.mk.injEq] at h
            rw [← h.1] at ht
            simp at ht
        · rename_i hmax
          have hmax' : reached s.maxStates (s.seen.size + 1) = false := by
            simpa [hs₁, seenAfter, hk] using hmax
          split at h
          · rename_i hdl
            have hlim : s₁.depthLimit = s.depthLimit := by simp [hs₁]
            rw [hlim, hdepth] at hdl
            cases hh : s₁.hitConstraint A scene top "depth" with
            | mk s₂ f =>
              rw [hh] at h
              cases f with
              | some f => simp only [Prod.mk.injEq] at h; exact absurd h.2.symm (hr f)
              | none =>
                obtain ⟨rfl, rfl⟩ := Prod.mk.inj h
                have hs₂ : s₂ = s.limited A scene top b key := by
                  rw [limited, ← hs₁]
                  exact eq_told A hh
                exact .inr ⟨rfl, hs₂ ▸ .limited hk hb hdl⟩
          · rename_i hdl
            have hlim : s₁.depthLimit = s.depthLimit := by simp [hs₁]
            rw [hlim, hdepth, Bool.not_eq_true] at hdl
            obtain ⟨rfl, rfl⟩ := Prod.mk.inj h
            exact .inl ⟨rfl, ⟨hk, hb, hdl, hmax'⟩, hs₁⟩

end Boundaries

/-! ## Retreats -/

/-- The search with the rest of its path. -/
def back (s : Search L κ) (rest : List PathEntry) : Search L κ :=
  { s with path := rest, stateId := topState rest, isNew := false, isEnd := false }

/-- The search after the last boundary of its path has been left. -/
def popped (s : Search L κ) (rest : List PathEntry) : Search L κ :=
  (s.back rest).told A s.outside none .backtracked

@[simp] lemma popped_path (s : Search L κ) (rest : List PathEntry) :
    (s.popped A rest).path = rest := rfl

@[simp] lemma popped_seen (s : Search L κ) (rest : List PathEntry) :
    (s.popped A rest).seen = s.seen := rfl

@[simp] lemma popped_depthLimit (s : Search L κ) (rest : List PathEntry) :
    (s.popped A rest).depthLimit = s.depthLimit := rfl

variable {A} in
/-- Leaving a boundary keeps the flag that ends the search. -/
lemma terminated_of_popped {s : Search L κ} {rest : List PathEntry}
    (h : (s.popped A rest).terminated = false) : s.terminated = false :=
  terminated_of_told A (s := s.back rest) h

/-- A recording audience has the retreat at the head of its log. -/
lemma popped_log {A : Audience L} (s : Search (L × Log) κ) (rest : List PathEntry) :
    (s.popped A.recorded rest).listeners.2 =
      ⟨(s.back rest).view s.outside none, .backtracked⟩ :: s.listeners.2 := rfl

/-- Leaving boundaries one after another, up to one with an alternative left. -/
inductive Retreats : Search L κ → Search L κ → Retreat → Prop
  | idle {s : Search L κ} (h : s.path = []) : Retreats s s .done
  | last {s : Search L κ} {e : PathEntry} (h : s.path = [e]) :
      Retreats s (s.popped A []) .done
  | resume {s : Search L κ} {e e' : PathEntry} {below : List PathEntry}
      (h : s.path = e :: e' :: below) (hm : e'.hasMore = true) :
      Retreats s { s.popped A (e' :: below) with path := e'.nextChoice :: below } .resume
  | further {s s' : Search L κ} {e e' : PathEntry} {below : List PathEntry} {r : Retreat}
      (h : s.path = e :: e' :: below) (hm : e'.hasMore = false)
      (h' : Retreats (s.popped A (e' :: below)) s' r) : Retreats s s' r

variable {A} in
/-- Retreats keep the flag that ends the search. -/
lemma Retreats.terminated_of {s s' : Search L κ} {r : Retreat} (h : s.Retreats A s' r)
    (ht : s'.terminated = false) : s.terminated = false := by
  induction h with
  | idle => exact ht
  | last => exact terminated_of_popped ht
  | resume => exact terminated_of_popped ht
  | further _ _ _ ih => exact terminated_of_popped (ih ht)

variable {A} in
/-- Retreats keep the fingerprints, and the limit on the depth with the limit hit last. -/
lemma Retreats.kept {s s' : Search L κ} {r : Retreat} (h : s.Retreats A s' r) :
    s'.seen = s.seen ∧ s'.depthLimit = s.depthLimit ∧ s'.constraint = s.constraint := by
  induction h with
  | idle => exact ⟨rfl, rfl, rfl⟩
  | last => exact ⟨rfl, rfl, rfl⟩
  | resume => exact ⟨rfl, rfl, rfl⟩
  | further _ _ _ ih => exact ih

/-- Nothing but retreats is announced while the search goes back. -/
lemma Retreats.log_eq {A : Audience L} {s t : Search (L × Log) κ} {r : Retreat}
    (h : s.Retreats A.recorded t r) :
    ∃ new, t.listeners.2 = new ++ s.listeners.2 ∧ ∀ d ∈ new, d.notice = .backtracked := by
  induction h with
  | idle => exact ⟨[], rfl, by simp⟩
  | last => exact ⟨[_], popped_log _ _, by simp⟩
  | resume => exact ⟨[_], popped_log _ _, by simp⟩
  | further _ _ _ ih =>
    obtain ⟨new, hlog, hnew⟩ := ih
    refine ⟨new ++ [_], by rw [hlog, popped_log, List.append_assoc]; rfl, ?_⟩
    intro d hd
    rcases List.mem_append.mp hd with hd | hd
    · exact hnew d hd
    · rw [List.mem_singleton.mp hd]

variable {A} in
/-- A search that resumes a choice has this choice on its path. -/
lemma Retreats.path_ne_nil {s t : Search L κ} {r : Retreat} (h : s.Retreats A t r)
    (hr : r = .resume) : t.path ≠ [] := by
  induction h with
  | idle => simp at hr
  | last => simp at hr
  | resume => simp
  | further _ _ _ ih => exact ih hr

/-- Going back is a sequence of single retreats, unless the search is ended.

**Proof sketch.** Induction on the path, which the search and the recursion share. -/
theorem backtrackFrom_cases {path : List PathEntry} :
    ∀ {s s' : Search L κ} {r : Retreat}, s.path = path → s.backtrackFrom A path = (s', r) →
      s'.terminated = false → (∀ f, r ≠ .failed f) → Retreats A s s' r := by
  induction path with
  | nil =>
    intro s s' r hp h _ _
    obtain ⟨rfl, rfl⟩ := Prod.mk.inj h
    exact .idle hp
  | cons e rest ih =>
    intro s s' r hp h ht hr
    rw [backtrackFrom] at h
    cases hn : (s.back rest).notify A s.outside none .backtracked with
    | mk s₁ f =>
      have hs₁ : s₁ = s.popped A rest := eq_told A hn
      rw [back] at hn
      rw [hn] at h
      cases f with
      | some f => simp only [Prod.mk.injEq] at h; exact absurd h.2.symm (hr f)
      | none =>
        simp only at h
        split at h
        · rename_i hterm
          obtain ⟨rfl, -⟩ := Prod.mk.inj h
          rw [ht] at hterm
          exact absurd hterm (by simp)
        · cases rest with
          | nil =>
            obtain ⟨rfl, rfl⟩ := Prod.mk.inj h
            exact hs₁ ▸ .last hp
          | cons e' below =>
            simp only at h
            split at h
            · rename_i hm
              obtain ⟨rfl, rfl⟩ := Prod.mk.inj h
              exact hs₁ ▸ .resume hp hm
            · rename_i hm
              exact .further hp (by simpa using hm)
                (hs₁ ▸ ih (by rw [hs₁]; rfl) h ht hr)

/-- Going back is a sequence of single retreats, unless the search is ended. -/
theorem backtrack_cases {s s' : Search L κ} {r : Retreat} (h : s.backtrack A = (s', r))
    (ht : s'.terminated = false) (hr : ∀ f, r ≠ .failed f) : Retreats A s s' r :=
  backtrackFrom_cases A rfl h ht hr

end Search

end StateAtlas
