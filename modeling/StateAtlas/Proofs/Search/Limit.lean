import StateAtlas.Proofs.Program.Coins
import StateAtlas.Proofs.Search.Course
import StateAtlas.Proofs.Search.Unlimited

set_option autoImplicit false

/-!
# The limit on states

A search with a limit on the number of states goes on as if it had none until it discovers, with
the limit reached, a state that is no end state. Then it says so and is over. End states are never
held against the limit, so that the number of states may exceed it.

## Main definitions

* `StateAtlas.Log.opened` — the number of discovered states that are no end states.
* `StateAtlas.Search.Within` — a search keeps within its limit.

## Main results

* `StateAtlas.Exploration.state_limit` — the limit bounds the states that are no end states; after
  the last of them nothing is discovered; and what the limit hides is said to be hidden.
* `StateAtlas.Exploration.state_limit_exceeded` — the number of states may exceed the limit.
-/

namespace StateAtlas

variable {σ L κ : Type}

/-- Whether a delivery announces a new state that is no end state. -/
def Delivery.opens (d : Delivery) : Bool :=
  match d.notice with
  | .advanced => d.view.isNew && !d.view.isEnd
  | _ => false

/-- The number of states announced as new that are no end states. -/
def Log.opened (log : Log) : Nat := log.countP Delivery.opens

namespace Log

lemma opens_of_ne {d : Delivery} (h : d.notice ≠ .advanced) : d.opens = false := by
  rw [Delivery.opens]
  cases hn : d.notice <;> simp_all

lemma notice_of_opens {d : Delivery} (h : d.opens = true) : d.notice = .advanced := by
  by_contra hn
  simp [opens_of_ne hn] at h

/-- States that are no end states are discovered. -/
lemma opened_le (log : Log) : opened log ≤ (discovered log).length := by
  induction log with
  | nil => exact Nat.le_refl _
  | cons d log ih =>
    rw [opened, List.countP_cons]
    split
    · rename_i ho
      have hn := notice_of_opens ho
      rw [Delivery.opens, hn] at ho
      rw [discovered, hn]
      simp only [Bool.and_eq_true] at ho
      simpa [ho.1, opened] using ih
    · exact Nat.le_trans ih (length_discovered_cons d log)

/-- What announces no boundary opens nothing. -/
lemma opened_append {new : Log} (h : ∀ d ∈ new, d.notice ≠ .advanced) (log : Log) :
    opened (new ++ log) = opened log := by
  have hzero : List.countP Delivery.opens new = 0 :=
    List.countP_eq_zero.mpr fun d hd => by simp [opens_of_ne (h d hd)]
  rw [opened, List.countP_append, hzero, Nat.zero_add, opened]

end Log

namespace Search

variable [DecidableEq κ] {A : Audience L}

/-- An act either reaches a boundary or announces none, and then it discovers nothing. -/
lemma Act.quiet_or_reach {A : Audience L} {x y : Search (L × Log) κ × Phase}
    (ha : Act A.recorded x y) :
    (∃ new : Log, y.1.listeners.2 = new ++ x.1.listeners.2 ∧ (∀ d ∈ new, d.notice ≠ .advanced) ∧
      y.1.seen = x.1.seen) ∨
      ∃ scene top b key previous r, x.2 = .running previous ∧
        x.1.advance A.recorded scene top b key = (y.1, r) ∧ y.2 = .after previous r := by
  cases ha with
  | begin h | conclude h | execute h | retreat _ _ h | finish h | restore _ h =>
    obtain rfl := eq_told _ h
    exact .inl ⟨[_], rfl, by simp, rfl⟩
  | reach h => exact .inr ⟨_, _, _, _, _, _, rfl, h, rfl⟩
  | _ => exact .inl ⟨[], rfl, by simp, rfl⟩

/-- The limits of a search stay as they are. -/
lemma Act.maxStates_eq {x y : Search L κ × Phase} (ha : Act A x y) :
    y.1.maxStates = x.1.maxStates := by
  cases ha with
  | begin h | conclude h | execute h | retreat _ _ h | finish h | restore _ h =>
    obtain rfl := eq_told _ h
    rfl
  | @reach s t scene top b key _ _ h =>
    rcases advance_eq h with ⟨rfl, -⟩ | ⟨limit, flag, -, -, rfl⟩
    · exact entered_maxStates A s scene top b key
    · exact entered_maxStates A s scene top b key
  | _ => rfl

/-- A state that is no end state settles the search once the limit is reached, whatever the
listeners do. -/
lemma settled_of_reached {s t : Search L κ} {scene : Scene} {top : Option FrameId} {b : Boundary}
    {key : κ} {r : Progress} (h : s.advance A scene top b key = (t, r)) (hk : key ∉ s.seen)
    (hb : b ≠ .finished) (hm : reached s.maxStates (s.seen.size + 1) = true)
    (previous : Option Instruction) : t.Settled (.after previous r) := by
  unfold advance at h
  cases hn : (s.enter b key).notify A scene top .advanced with
  | mk u f =>
    obtain rfl : u = s.entered A scene top b key := eq_told A hn
    have hnew : (s.entered A scene top b key).isNew = true := by simp [entered, enter_eq, hk]
    have hend : (s.entered A scene top b key).isEnd = false := by simp [entered, enter_eq, hb]
    have hsize : (s.entered A scene top b key).seen.size = s.seen.size + 1 := by
      simp [seenAfter, hk]
    rw [hn] at h
    cases f with
    | some f =>
      obtain ⟨rfl, rfl⟩ := Prod.mk.inj h
      trivial
    | none =>
      simp only [hnew, hend, hsize, entered_maxStates, hm] at h
      split at h
      · rename_i ht
        obtain ⟨rfl, rfl⟩ := Prod.mk.inj h
        simpa [Settled] using ht
      · simp only [if_true] at h
        split at h
        · obtain ⟨rfl, rfl⟩ := Prod.mk.inj h
          trivial
        · obtain ⟨rfl, rfl⟩ := Prod.mk.inj h
          rfl

/-- A search with a limit on states keeps within it: states that are no end states do not exceed
it, and nothing is discovered after one with which the limit is reached. -/
structure Within (N : Int) (s : Search (L × Log) κ) (φ : Phase) : Prop where
  limit : s.maxStates = some N
  course : Log.Course s.listeners.2 s.seen.size φ
  le : (Log.opened s.listeners.2 : Int) ≤ N
  lt : ¬s.Settled φ → (Log.opened s.listeners.2 : Int) < N
  last : ∀ d ∈ s.listeners.2, d.opens = true → N ≤ d.view.stateId + 1 →
    s.Settled φ ∧ d.view.stateId + 1 = s.seen.size

/-- An act that reaches no boundary keeps within the limit. -/
lemma Within.quiet {N : Int} {x y : Search (L × Log) κ × Phase} (h : Within N x.1 x.2)
    (ha : Act A.recorded x y) {new : Log} (hlog : y.1.listeners.2 = new ++ x.1.listeners.2)
    (hnew : ∀ d ∈ new, d.notice ≠ .advanced) (hseen : y.1.seen = x.1.seen) : Within N y.1 y.2 := by
  have hopened : Log.opened y.1.listeners.2 = Log.opened x.1.listeners.2 := by
    rw [hlog, Log.opened_append hnew]
  have settled : x.1.Settled x.2 → y.1.Settled y.2 := fun hs => (hs.act ha).1
  refine ⟨ha.maxStates_eq.trans h.limit, course_act ha h.course, hopened ▸ h.le, fun hns => ?_, ?_⟩
  · rw [hopened]
    exact h.lt fun hs => hns (settled hs)
  · intro d hd ho hN
    rw [hlog, List.mem_append] at hd
    rcases hd with hd | hd
    · exact absurd (Log.notice_of_opens ho) (hnew d hd)
    · obtain ⟨hs, hid⟩ := h.last d hd ho hN
      exact ⟨settled hs, by rw [hseen, hid]⟩

/-- A boundary that is reached keeps within the limit.

**Proof sketch.** As long as the search is not settled, no state has reached the limit. A new state
that is no end state either is below the limit, together with all states discovered before, or
settles the search. -/
lemma Within.reach {N : Int} {s t : Search (L × Log) κ} {scene : Scene} {top : Option FrameId}
    {b : Boundary} {key : κ} {previous : Option Instruction} {r : Progress}
    (h : Within N s (.running previous)) (hadv : s.advance A.recorded scene top b key = (t, r)) :
    Within N t (.after previous r) := by
  have hact : Act A.recorded (s, .running previous) (t, .after previous r) := .reach hadv
  obtain ⟨later, hlog, hlater⟩ := advance_said hadv
  have hlimits : ∀ d ∈ later, d.notice ≠ .advanced := fun d hd => by simp [hlater d hd]
  have hrunning : ¬s.Settled (.running previous) := fun hs => hs
  have hlt := h.lt hrunning
  have hbelow : ∀ d ∈ s.listeners.2, d.opens = true → ¬N ≤ d.view.stateId + 1 :=
    fun d hd ho hN => hrunning (h.last d hd ho hN).1
  have hopened : Log.opened t.listeners.2 = Log.opened s.listeners.2 +
      if (s.arrival scene top b key).opens then 1 else 0 := by
    rw [hlog, Log.opened_append hlimits, Log.opened, List.countP_cons, Log.opened]
  have hopens : (s.arrival scene top b key).opens = true ↔ key ∉ s.seen ∧ b ≠ .finished := by
    simp [Delivery.opens, arrival, view, enter_eq]
  have hmem : ∀ d ∈ t.listeners.2, d.opens = true → d ∈ s.listeners.2 ∨
      d = s.arrival scene top b key := by
    intro d hd ho
    rw [hlog, List.mem_append, List.mem_cons] at hd
    rcases hd with hd | rfl | hd
    · exact absurd (Log.notice_of_opens ho) (hlimits d hd)
    · exact .inr rfl
    · exact .inl hd
  have hcourse := course_act hact h.course
  refine ⟨hact.maxStates_eq.trans h.limit, hcourse, ?_, ?_, ?_⟩
  · rw [hopened]
    split <;> omega
  · intro hns
    rw [hopened]
    split
    · rename_i ho
      obtain ⟨hk, hb⟩ := hopens.mp ho
      have hm : ¬reached s.maxStates (s.seen.size + 1) = true := fun hm =>
        hns (settled_of_reached hadv hk hb hm previous)
      have hle := Log.opened_le s.listeners.2
      rw [h.course.discovered] at hle
      simp only [h.limit, reached, decide_eq_true_eq, List.length_map, List.length_range] at hm hle
      omega
    · omega
  · intro d hd ho hN
    rcases hmem d hd ho with hd | rfl
    · exact absurd hN (hbelow d hd ho)
    · obtain ⟨hk, hb⟩ := hopens.mp ho
      rw [arrival_stateId, (identify_of_not_mem hk).1] at hN ⊢
      have hm : reached s.maxStates (s.seen.size + 1) = true := by
        simpa [h.limit, reached] using hN
      refine ⟨settled_of_reached hadv hk hb hm previous, ?_⟩
      rw [advance_seen hadv, seenAfter, if_neg hk, Array.size_push]
      rfl

/-- Every act keeps within the limit. -/
lemma Within.act {N : Int} {x y : Search (L × Log) κ × Phase} (ha : Act A.recorded x y)
    (h : Within N x.1 x.2) : Within N y.1 y.2 := by
  rcases ha.quiet_or_reach with ⟨new, hlog, hnew, hseen⟩ | ⟨scene, top, b, key, previous, r, hx, hadv, hy⟩
  · exact h.quiet ha hlog hnew hseen
  · rw [hy]
    rw [hx] at h
    exact h.reach hadv

end Search

namespace Exploration

variable {P : Program σ κ} {A : Audience L} [DecidableEq κ]

section Runs

variable {name : String} {depthLimit : Option Int} {outside : Scene} {l : L}

/-- A search with a limit keeps within it. -/
lemma within_after {N : Int} (hN : 1 ≤ N) (n : Nat) :
    Search.Within N
      (after P A.recorded n (fresh name depthLimit (some N) outside l)).search
      (phase (after P A.recorded n (fresh name depthLimit (some N) outside l)).search
        (after P A.recorded n (fresh name depthLimit (some N) outside l)).stage) :=
  let Holds (y : Search (L × Log) κ × Phase) : Prop := Search.Within N y.1 y.2
  have hstart : Holds
      ((fresh name depthLimit (some N) outside l : Exploration σ _ κ).search, .waiting) :=
    ⟨rfl, course_after (P := P) (A := A) 0, by simp [Log.opened, fresh, ofSearch, Search.new]; omega,
      fun _ => by simp [Log.opened, fresh, ofSearch, Search.new]; omega,
      by simp [fresh, ofSearch, Search.new]⟩
  invariant_after (A := A.recorded) (P := P) orderly_fresh hstart Search.Within.act n

/-- A search with a limit on states is the search without it, until the limit is hit. -/
lemma unlimited_after (maxStates : Option Int) (n : Nat) :
    after P A n (ofSearch (.new name depthLimit none outside l)) =
        (after P A n (ofSearch (.new name depthLimit maxStates outside l))).unlimited ∨
      Spent (after P A n (ofSearch (.new name depthLimit maxStates outside l))).search
        (after P A n (ofSearch (.new name depthLimit maxStates outside l))).stage := by
  induction n with
  | zero => exact .inl rfl
  | succ n ih =>
    rw [after_succ, after_succ]
    rcases ih with ih | ih
    · rw [ih]
      exact step_unlimited _
    · exact .inr (spent_step (orderly_after (by trivial) n) ih)

/-- What a limit on the number of states does, in every run. The states that are no end states do
not exceed it. Once such a state reaches it, nothing is discovered any more. And either the run is
the run without the limit, or the limit is said to have been hit and the search is over: it has
been ended, unless a listener has failed or the program has interrupted the run.

**Proof sketch.** The first two are an invariant of the acts of the search, `Within`. The third is
by induction on the moves: a move looks at the limit only when it discovers a state that is no end
state, and a search in which the limit has been hit stays settled. -/
theorem state_limit {N : Int} (hN : 1 ≤ N) (n : Nat) :
    (Log.opened
      (after P A.recorded n (fresh name depthLimit (some N) outside l)).search.listeners.2 : Int) ≤
        N ∧
    (∀ d ∈ (after P A.recorded n (fresh name depthLimit (some N) outside l)).search.listeners.2,
      d.opens = true → N ≤ d.view.stateId + 1 →
        ((after P A.recorded n (fresh name depthLimit (some N) outside l)).search.seen.size : Int) =
          d.view.stateId + 1) ∧
    (after P A.recorded n (fresh name depthLimit none outside l) =
        (after P A.recorded n (fresh name depthLimit (some N) outside l)).unlimited ∨
      (after P A.recorded n (fresh name depthLimit (some N) outside l)).search.constraint =
          some "states" ∧
        ((after P A.recorded n (fresh name depthLimit (some N) outside l)).search.terminated = true ∨
          ¬(after P A.recorded n (fresh name depthLimit (some N) outside l)).stage.Sound)) := by
  have hw : Search.Within N
      (after P A.recorded n (fresh name depthLimit (some N) outside l)).search _ :=
    within_after hN n
  exact ⟨hw.le, fun d hd ho hid => (hw.last d hd ho hid).2.symm,
    (unlimited_after (some N) n).imp_right fun h => ⟨h.1, h.ended⟩⟩

/-- The limit holds of the search through the throws of two coins with three states allowed. -/
theorem state_limit_coins :
    (1 : Int) ≤ 3 ∧ (Log.opened (after coins Audience.mute.recorded 12
      (fresh "coins" none (some 3) ⟨.empty, .empty, #[]⟩ ())).search.listeners.2 : Int) ≤ 3 :=
  ⟨by decide, (state_limit (by decide) 12).1⟩

/-- The number of states may exceed the limit: two coins have two end states when three states are
allowed, and the search goes on. -/
theorem state_limit_exceeded :
    ∃ n, (after coins Audience.mute n
        (ofSearch (.new "coins" none (some 3) ⟨.empty, .empty, #[]⟩ ()))).search.seen.size = 4 ∧
      (after coins Audience.mute n
        (ofSearch (.new "coins" none (some 3) ⟨.empty, .empty, #[]⟩ ()))).search.constraint = none ∧
      (after coins Audience.mute n
        (ofSearch (.new "coins" none (some 3) ⟨.empty, .empty, #[]⟩ ()))).search.terminated = false :=
  ⟨9, by decide +kernel⟩

end Runs

end Exploration

end StateAtlas
