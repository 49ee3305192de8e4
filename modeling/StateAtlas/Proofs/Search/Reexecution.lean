import StateAtlas.Proofs.Program.Execution
import StateAtlas.Proofs.Search.Saying
import StateAtlas.Proofs.Search.Snapshot

set_option autoImplicit false

/-!
# Executing again instead of keeping snapshots

The search comes back to a choice by executing the program from its start and repeating the
choices that led there. For a deterministic program this is as good as a snapshot: the loop of the
search makes the moves of the recursion that keeps snapshots, with silent ones in between.

## Main definitions

* `StateAtlas.Exploration.settle` — what the loop does after a boundary has been left.
* `StateAtlas.Descent.Outcome.settled` — where the loop stands at an outcome of the recursion.
* `StateAtlas.Exploration.Meets` — the loop comes to where the recursion has come.
* `StateAtlas.Exploration.Tracks` — the loop is where the recursion visits a configuration.

## Main results

* `StateAtlas.Exploration.exists_repeated` — an execution that repeats choices comes to the place
  they lead to.
* `StateAtlas.Exploration.visit_simulated` — the loop goes along with a visit.
* `StateAtlas.Exploration.explore_simulated` — the loop goes along with the whole recursion.
-/

namespace StateAtlas

open Program

variable {σ L κ : Type}

namespace Exploration

variable (A : Audience L)

/-! ## Going back in one move and in many -/

/-- What the loop does after a boundary has been left. -/
def settle (s : Search L κ) : Search L κ × Stage σ :=
  match s.path with
  | [] => finish A s
  | e :: below =>
    if e.hasMore then ({ s with path := e.nextChoice :: below }, .launching) else goBack A s

end Exploration

/-- The end of an execution that the recursion visits, once an exception has been reported. -/
def Descent.endVisit [DecidableEq κ] (P : Program σ κ) (A : Audience L) (s : Search L κ) (q : σ)
    (w : Walk) (ending : Ending) : Descent.Outcome L κ :=
  match w.failure with
  | some f => .ended s (.failed f)
  | none =>
    if w.stopping || ending = .stopped then Descent.retreat A s
    else
      match Exploration.finishPath P A s q w with
      | (t, some f) => .ended t (.failed f)
      | (t, none) => Descent.retreat A t

/-- Where the loop stands at an outcome of the recursion. -/
def Descent.Outcome.settled (A : Audience L) :
    Descent.Outcome L κ → Option (Search L κ × Stage σ)
  | .back s => some (Exploration.settle A s)
  | .ended s e => some (s, .ended e)
  | .lost _ => none

namespace Exploration

open Descent

variable {P : Program σ κ} {A : Audience L}

/-- The last notice of the recursion is that of the loop. -/
lemma settled_last (s : Search L κ) : (last A s).settled A = some (finish A s : _ × Stage σ) := by
  unfold last finish
  cases s.notify A s.outside none .finished with
  | mk t f => cases f <;> rfl

/-- Leaving a boundary and what the loop does then is going back. -/
lemma settled_leave (s : Search L κ) : (leave A s).settled A = some (goBack A s : _ × Stage σ) := by
  unfold leave goBack Search.backtrack
  cases hp : s.path with
  | nil => simp [Outcome.settled, settle, hp, Search.backtrackFrom]
  | cons e rest =>
    simp only [Search.backtrackFrom]
    rw [← Search.back]
    cases hn : (s.back rest).notify A s.outside none .backtracked with
    | mk t f =>
      have htp : t.path = rest := by rw [Search.eq_told A hn]; rfl
      cases f with
      | some f => rfl
      | none =>
        simp only
        by_cases ht : t.terminated = true
        · simp only [ht, if_true]
          exact settled_last t
        · simp only [ht]
          cases rest with
          | nil => simp [Outcome.settled, settle, htp]
          | cons e' below =>
            by_cases hm : e'.hasMore = true
            · simpa [Outcome.settled, settle, htp, hm] using ht
            · simp [Outcome.settled, settle, htp, hm, goBack, Search.backtrack]

/-- The end of an execution is the end of a path. -/
lemma settled_retreat (s : Search L κ) :
    (retreat A s).settled A = some (afterPath A s : _ × Stage σ) := by
  simp only [retreat, afterPath]
  split
  · exact settled_last _
  · rw [settled_leave]
    rfl

/-- What has been left is off the path, and the search has not been ended. -/
lemma leave_eq_back {s t : Search L κ} (h : leave A s = .back t) (hs : s.terminated = false) :
    t.path = s.path.tail ∧ t.terminated = false := by
  unfold leave at h
  cases hp : s.path with
  | nil =>
    rw [hp] at h
    obtain rfl : s = t := by simpa using h
    exact ⟨hp, hs⟩
  | cons e rest =>
    rw [hp] at h
    simp only at h
    cases hn : (s.back rest).notify A s.outside none .backtracked with
    | mk u f =>
      have hup : u.path = rest := by rw [Search.eq_told A hn]; rfl
      rw [hn] at h
      cases f with
      | some f => simp at h
      | none =>
        simp only at h
        split at h
        · unfold last at h
          split at h <;> simp at h
        · rename_i hterm
          obtain rfl : u = t := by simpa using h
          exact ⟨hup, by simpa using hterm⟩

/-- The last notice is no way back. -/
lemma last_ne_back (s t : Search L κ) : last A s ≠ .back t := by
  unfold last
  split <;> simp

/-- After the end of an execution the last boundary is off the path. -/
lemma retreat_eq_back {s t : Search L κ} (h : retreat A s = .back t) :
    s.terminated = false ∧ t.path = s.path.tail ∧ t.terminated = false := by
  simp only [retreat] at h
  split at h
  · exact absurd h (last_ne_back _ _)
  · rename_i hterm
    have hterm : s.terminated = false := by simpa using hterm
    exact ⟨hterm, leave_eq_back (s := { s with paths := s.paths + 1 }) h hterm⟩

/-! ## Executions that are twins -/

section Congruence

variable [DecidableEq κ] {q q' : σ} {w w' : Walk}

/-- Before an instruction only what can be seen of a configuration matters. -/
lemma concludeStep_congr (h : P.Twins q q') (hf : w'.frame = w.frame)
    (hp : w'.previous = w.previous) (s : Search L κ) (i : Instruction) :
    concludeStep P A s q' w' i = concludeStep P A s q w i := by
  simp only [concludeStep, ← h.alike.scene, ← h.fingerprint w.execution w'.execution, hf, hp]

/-- At the end only what can be seen of a configuration matters. -/
lemma finishPath_congr (h : P.Twins q q') (hp : w'.previous = w.previous) (s : Search L κ) :
    finishPath P A s q' w' = finishPath P A s q w := by
  simp only [finishPath, ← h.alike.scene, ← h.fingerprint w.execution w'.execution, hp]

/-- Once an exception has been reported, the end of an execution with nothing left to repeat is the
same for the loop and the recursion. -/
lemma settled_endVisit (h : P.Twins q q') (hw : w.replay = []) (n k : Nat) (s : Search L κ)
    (ending : Ending) :
    (endVisit P A s q w ending).settled A =
      some (endPath P A s q' { w with execution := n, replayLength := k } ending) := by
  simp only [endVisit, endPath, hw, List.isEmpty_nil, Bool.not_true, Bool.false_eq_true, if_false]
  cases w.failure with
  | some f => rfl
  | none =>
    simp only
    split
    · exact settled_retreat s
    · rw [finishPath_congr (w := w) h (by rfl) s]
      cases finishPath P A s q w with
      | mk u f =>
        cases f with
        | some f => rfl
        | none => exact settled_retreat u

/-- The end of an execution with nothing left to repeat is the same for the loop and the
recursion. -/
lemma settled_conclude (h : P.Twins q q') (hw : w.replay = []) (n k : Nat) (s : Search L κ)
    (ending : Ending) :
    (conclude P A s q w ending).settled A =
      some (onEnd P A s q' { w with execution := n, replayLength := k } ending) := by
  cases ending with
  | interrupted type message => simp [conclude, onEnd, Outcome.settled, h.alike.scene]
  | raised type message =>
    exact settled_endVisit h hw n k (s.report A (raisedReport s.name type message)) _
  | normal => exact settled_endVisit h hw n k s _
  | exit => exact settled_endVisit h hw n k s _
  | stopped => exact settled_endVisit h hw n k s _

end Congruence

/-! ## Repeating choices -/

section Loop

variable [DecidableEq κ]

/-- While an execution repeats choices, the loop makes the moves of an uninterrupted execution and
says nothing. -/
lemma step_repeated {B : σ → σ → Prop} (hB : P.Bisimulation B) {l m : Place σ}
    (h : P.Onward l m) {p : σ} (ha : B l.config p) {rest rest' : List Nat}
    (hc : l.choices ++ rest = m.choices ++ rest') (hrest : rest' ≠ [])
    (s : Search L κ) (printed : Array String) (k len : Nat) :
    ∃ p' printed', step P A
        ⟨s, .executing p ⟨k, l.frame, l.previous, false, none, rest, len⟩, printed⟩ =
      ⟨s, .executing p' ⟨k, m.frame, m.previous, false, none, rest', len⟩, printed'⟩ ∧
      B m.config p' := by
  have hempty : rest'.isEmpty = false := by simpa using hrest
  cases h with
  | internal h =>
    obtain ⟨q', hq', ha'⟩ := hB.exists_next ha h
    obtain rfl : rest = rest' := by simpa using hc
    exact ⟨q', printed, by simp [step, hq', Move.withConfig], ha'⟩
  | @print text _ h =>
    obtain ⟨q', hq', ha'⟩ := hB.exists_next ha h
    obtain rfl : rest = rest' := by simpa using hc
    exact ⟨q', printed.push text, by simp [step, hq', Move.withConfig], ha'⟩
  | effect h =>
    obtain ⟨q', hq', ha'⟩ := hB.exists_next ha h
    obtain rfl : rest = rest' := by simpa using hc
    exact ⟨q', printed, by simp [step, hq', Move.withConfig], ha'⟩
  | instruction h =>
    obtain ⟨q', hq', ha'⟩ := hB.exists_next ha h
    obtain rfl : rest = rest' := by simpa [Place.begin] using hc
    exact ⟨P.reply q' .proceed, printed, by
      simp [step, hq', Move.withConfig, onInstruction, hempty, Place.begin], hB.reply ha' .proceed⟩
  | refuse h hlt =>
    obtain ⟨q', hq', ha'⟩ := hB.exists_next ha h
    obtain rfl : rest = rest' := by simpa using hc
    exact ⟨_, printed, by simp [step, hq', Move.withConfig, onChoice, hlt], hB.reply ha' _⟩
  | @choose options _ h a hlt =>
    obtain ⟨q', hq', ha'⟩ := hB.exists_next ha h
    obtain rfl : rest = a :: rest' := by simpa [Place.choose] using hc
    have hpos : ¬ options < 1 := by omega
    exact ⟨P.reply q' (.choose a), printed, by
      simp [step, hq', Move.withConfig, onChoice, hempty, hpos, Place.choose], hB.reply ha' _⟩

/-- An execution that repeats the choices leading to a place comes to this place, and nothing is
said on the way.

**Proof sketch.** Induction on the uninterrupted execution that leads to the place. -/
theorem exists_repeated {B : σ → σ → Prop} (hB : P.Bisimulation B)
    (hstart : ∀ k, B (P.start 0) (P.start k)) {m : Place σ} (hm : P.Reaches m) :
    ∀ {rest : List Nat}, rest ≠ [] → ∀ (s : Search L κ) (printed : Array String) (k len : Nat),
      ∃ n p printed', after P A n
          ⟨s, .executing (P.start k) ⟨k, none, none, false, none, m.choices ++ rest, len⟩,
            printed⟩ =
        ⟨s, .executing p ⟨k, m.frame, m.previous, false, none, rest, len⟩, printed'⟩ ∧
        B m.config p := by
  induction hm with
  | refl => exact fun _ s printed k len => ⟨0, P.start k, printed, rfl, hstart k⟩
  | @tail l m _ ho ih =>
    intro rest hrest s printed k len
    obtain ⟨followed, hfollowed⟩ := ho.choices_prefix
    have hc : l.choices ++ (followed ++ rest) = m.choices ++ rest := by
      rw [← hfollowed, List.append_assoc]
    have hrest' : followed ++ rest ≠ [] := by simp [hrest]
    obtain ⟨n, p, printed', hn, ha⟩ := ih hrest' s printed k len
    obtain ⟨p', printed'', hstep, ha'⟩ := step_repeated hB ho ha hc hrest s printed' k len
    exact ⟨n + 1, p', printed'', by rw [after_succ, ← hc, hn, hstep], ha'⟩

/-! ## Meeting the recursion -/

variable (P A) in
/-- The loop comes to where the recursion has come; where the recursion has used up its fuel, the
loop has made as many moves. -/
inductive Meets (fuel : Nat) (x : Exploration σ L κ) : Outcome L κ → Prop
  | settled {r : Outcome L κ} {n : Nat}
      (h : r.settled A = some ((after P A n x).search, (after P A n x).stage)) : Meets fuel x r
  | lost {n : Nat} (hn : fuel ≤ n) (h : ∀ e, (after P A n x).stage ≠ .ended e) :
      Meets fuel x (.lost (after P A n x).search)

/-- The loop may make moves of its own before it goes along with the recursion. -/
lemma Meets.of_after {fuel k : Nat} {x : Exploration σ L κ} {r : Outcome L κ}
    (h : Meets P A fuel (after P A k x) r) : Meets P A (fuel + k) x r := by
  cases h with
  | settled h =>
    rw [← after_add] at h
    exact .settled h
  | lost hn h =>
    rw [← after_add] at h ⊢
    exact .lost (by omega) h

/-- Less fuel takes fewer moves. -/
lemma Meets.mono {fuel fuel' : Nat} {x : Exploration σ L κ} {r : Outcome L κ}
    (h : Meets P A fuel x r) (hle : fuel' ≤ fuel) : Meets P A fuel' x r := by
  cases h with
  | settled h => exact .settled h
  | lost hn h => exact .lost (by omega) h

variable (P A) in
/-- The loop goes along with a visit, which comes back with a part of the path at most. -/
structure Visited (path : List PathEntry) (fuel : Nat) (x : Exploration σ L κ)
    (r : Outcome L κ) : Prop where
  meets : Meets P A fuel x r
  path : ∀ {s}, r = .back s → s.path <:+ path ∧ s.terminated = false

/-- The loop may make moves of its own before it goes along with a visit. -/
lemma Visited.of_after {path path' : List PathEntry} {fuel fuel' k : Nat}
    {x : Exploration σ L κ} {r : Outcome L κ} (h : Visited P A path fuel (after P A k x) r)
    (hle : fuel' ≤ fuel + k) (hpath : path <:+ path') : Visited P A path' fuel' x r where
  meets := h.meets.of_after.mono hle
  path hr := ⟨(h.path hr).1.trans hpath, (h.path hr).2⟩

omit [DecidableEq κ] in
/-- A part of a path has the whole length only if it is the whole path. -/
lemma eq_of_suffix_cons {path below : List PathEntry} {e : PathEntry} (h : path <:+ e :: below) :
    (path.length = below.length + 1 → path = e :: below) ∧
      (path.length ≠ below.length + 1 → path <:+ below) := by
  rcases List.suffix_cons_iff.mp h with rfl | h
  · exact ⟨fun _ => rfl, fun hne => absurd rfl hne⟩
  · have hlen := h.length_le
    exact ⟨fun heq => by omega, fun _ => h⟩

/-- A boundary without an alternative left is left by the loop, too. -/
lemma visited_leave {s : Search L κ} {e : PathEntry} {below : List PathEntry} {fuel n : Nat}
    {x : Exploration σ L κ} (hs : settle A s = ((after P A n x).search, (after P A n x).stage))
    (hpath : s.path = e :: below) (he : e.hasMore = false) (ht : s.terminated = false) :
    Visited P A below fuel x (leave A s) where
  meets := by
    refine .settled (n := n) ?_
    rw [settled_leave, ← hs]
    simp [settle, hpath, he]
  path h := by
    obtain ⟨hp, ht'⟩ := leave_eq_back h ht
    rw [hp, hpath]
    exact ⟨List.suffix_refl below, ht'⟩

/-- When the loop has gone along with everything below a boundary without an alternative left, it
leaves the boundary. -/
lemma visited_close {e : PathEntry} {below : List PathEntry} {fuel : Nat}
    {x : Exploration σ L κ} {r : Outcome L κ} (h : Visited P A (e :: below) fuel x r)
    (he : e.hasMore = false) : Visited P A below fuel x (close A (below.length + 1) r) := by
  cases r with
  | ended s ex => exact ⟨h.meets, by simp [close]⟩
  | lost s => exact ⟨h.meets, by simp [close]⟩
  | back s =>
    obtain ⟨hpath, ht⟩ := h.path rfl
    obtain ⟨hall, hpart⟩ := eq_of_suffix_cons hpath
    simp only [close]
    by_cases hlen : s.depth = below.length + 1
    · rw [if_pos hlen]
      cases h.meets with
      | settled hs => exact visited_leave (Option.some.inj hs) (hall hlen) he ht
    · rw [if_neg hlen]
      refine ⟨h.meets, fun {t} heq => ?_⟩
      obtain rfl : s = t := by simpa using heq
      exact ⟨hpart hlen, ht⟩

/-- A boundary that is not on the path need not be left. -/
lemma visited_close_of_lt {path : List PathEntry} {fuel depth : Nat} {x : Exploration σ L κ}
    {r : Outcome L κ} (h : Visited P A path fuel x r) (hlt : path.length < depth) :
    Visited P A path fuel x (close A depth r) := by
  cases r with
  | back s =>
    have hne : s.depth ≠ depth := Nat.ne_of_lt (Nat.lt_of_le_of_lt (h.path rfl).1.length_le hlt)
    rwa [close, if_neg hne]
  | _ => exact h

/-! ## The simulation -/

variable (P) in
/-- A configuration with its walk is that of a place, which follows the choices of the path. -/
def Located (path : List PathEntry) (p : σ) (w : Walk) : Prop :=
  w.failure = none ∧ ∃ l, P.Reaches l ∧ l.config = p ∧ l.frame = w.frame ∧
    l.previous = w.previous ∧ l.choices = PathEntry.choices path

variable (P) in
/-- The loop is where the recursion visits a configuration. As long as the program has not been
stopped, this is the configuration of a place. -/
structure Tracks (s : Search L κ) (p : σ) (w : Walk) (x : Exploration σ L κ) : Prop where
  search : x.search = s
  stage : ∃ p' j k, x.stage = .executing p' { w with execution := j, replayLength := k } ∧
    P.Twins p p'
  replay : w.replay = []
  located : w.stopping = false → s.terminated = false → Located P s.path p w

/-- The next move of the loop is made by a configuration like the one that is visited. -/
lemma Tracks.exists_step {s : Search L κ} {p : σ} {w : Walk} {x : Exploration σ L κ}
    (h : Tracks P s p w x) : ∃ p' j k, P.Twins p p' ∧
      after P A 1 x =
        step P A ⟨s, .executing p' { w with execution := j, replayLength := k }, x.printed⟩ := by
  obtain ⟨p', j, k, hstage, ha⟩ := h.stage
  obtain ⟨t, stage, printed⟩ := x
  obtain rfl : t = s := h.search
  obtain rfl : stage = _ := hstage
  exact ⟨p', j, k, ha, rfl⟩

variable (P A) in
/-- The loop goes along with visits of some fuel. -/
def Simulated (fuel : Nat) (go : Search L κ → σ → Walk → Outcome L κ) : Prop :=
  ∀ {s p w x}, Tracks P s p w x →
    Visited P A (if w.stopping then s.path.tail else s.path) fuel x (go s p w)

/-- The loop tracks a program that it stops. -/
lemma Simulated.stop {fuel : Nat} {go : Search L κ → σ → Walk → Outcome L κ}
    (h : Simulated P A fuel go) {s : Search L κ} {q q' : σ} {w : Walk} {x : Exploration σ L κ}
    {f : Option Fault} {n j k : Nat} (ha : P.Twins q q') (hw : w.replay = [])
    (hx : (after P A n x).search = s ∧ (after P A n x).stage =
      .executing (P.reply q' .stop) { w.stopped f with execution := j, replayLength := k })
    {path : List PathEntry} (hpath : s.path.tail <:+ path) {fuel' : Nat} (hle : fuel' ≤ fuel + n) :
    Visited P A path fuel' x (go s (P.reply q .stop) (w.stopped f)) := by
  have ht : Tracks P s (P.reply q .stop) (w.stopped f) (after P A n x) :=
    ⟨hx.1, ⟨_, j, k, hx.2, ha.reply .stop⟩, hw, by simp [Walk.stopped]⟩
  exact (h ht).of_after hle hpath

/-- A search that has not been ended starts an execution. -/
lemma step_launching {s : Search L κ} (h : s.terminated = false) (printed : Array String) :
    step P A ⟨s, .launching, printed⟩ =
      ⟨s.unasked, .executing (P.start s.paths) (newWalk s), printed⟩ := by
  simp only [step, launch, h, Search.unasked]
  rfl

omit [DecidableEq κ] in
/-- A search turns the choice on its path to an alternative. -/
lemma turned_eq {s : Search L κ} {i o c a : Nat} {below : List PathEntry}
    (hpath : s.path = ⟨i, o, c⟩ :: below) :
    s.turned a = { s with path := ⟨i, o, a⟩ :: below, breakReason := none } := by
  simp [Search.turned, hpath]

/-- The loop that turns a choice to its next alternative executes the program again, which repeats
all choices up to the place of this one. -/
lemma exists_resumed (hP : P.Reproducible) {l : Place σ} {n : Int} {q : σ} (hl : P.Reaches l)
    (hq : P.next l.config = .choice n q) {s : Search L κ} {i c : Nat} {below : List PathEntry}
    (hpath : s.path = ⟨i, n.toNat, c⟩ :: below) (ha : c + 1 < n.toNat)
    (hc : l.choices = PathEntry.choices below) (ht : s.terminated = false)
    {x : Exploration σ L κ} {k : Nat}
    (hx : settle A s = ((after P A k x).search, (after P A k x).stage)) :
    ∃ m p q' printed, P.next p = .choice n q' ∧ P.Twins q q' ∧
      after P A m x = ⟨s.turned (c + 1), .executing p
        ⟨s.paths, l.frame, l.previous, false, none, [c + 1], (l.choices ++ [c + 1]).length⟩,
        printed⟩ := by
  set e : PathEntry := ⟨i, n.toNat, c + 1⟩ with he
  have hreplay : ({ s with path := e :: below } : Search L κ).replay = l.choices ++ [c + 1] := by
    have hne : n.toNat ≠ 0 := by omega
    simp [Search.replay_eq, PathEntry.choices, he, hc, hne]
  -- a new execution is started
  obtain ⟨printed, hk⟩ : ∃ printed,
      after P A k x = ⟨{ s with path := e :: below }, .launching, printed⟩ := by
    refine ⟨(after P A k x).printed, ?_⟩
    have hmore : (⟨i, n.toNat, c⟩ : PathEntry).hasMore = true := by simpa [PathEntry.hasMore] using ha
    simp only [settle, hpath, hmore, if_true, PathEntry.nextChoice] at hx
    rw [(Prod.mk.inj hx).1, (Prod.mk.inj hx).2]
  have hlaunch : after P A (k + 1) x = ⟨s.turned (c + 1), .executing (P.start s.paths)
      ⟨s.paths, none, none, false, none, l.choices ++ [c + 1], (l.choices ++ [c + 1]).length⟩,
      printed⟩ := by
    rw [after_succ, hk, step_launching (s := { s with path := e :: below }) ht, newWalk, hreplay,
      turned_eq hpath]
    rfl
  -- it comes to the place of the choice
  obtain ⟨m, p, printed', hm, halike⟩ := exists_repeated (A := A) P.bisimulation_twins (hP 0)
    hl (List.cons_ne_nil (c + 1) []) (s.turned (c + 1)) printed s.paths
    (l.choices ++ [c + 1]).length
  obtain ⟨q', hq', halike'⟩ := halike.exists_next hq
  exact ⟨m + (k + 1), p, q', printed', hq', halike',
    (after_add m (k + 1) x).trans (hlaunch ▸ hm)⟩

/-- The loop comes back to a choice and resumes it with its next alternative.

**Proof sketch.** The execution that is started repeats all choices up to the place of this one.
There it is restored, which is what the recursion says of the snapshot. -/
lemma visited_resume (hP : P.Reproducible) {fuel : Nat}
    {go : Search L κ → σ → Walk → Outcome L κ} (hgo : Simulated P A fuel go) {l : Place σ} {n : Int}
    {q : σ} (hl : P.Reaches l) (hq : P.next l.config = .choice n q) {s : Search L κ} {i c : Nat}
    {below : List PathEntry} (hpath : s.path = ⟨i, n.toNat, c⟩ :: below) (ha : c + 1 < n.toNat)
    (hc : l.choices = PathEntry.choices below) (ht : s.terminated = false) {j len : Nat}
    {x : Exploration σ L κ} {k : Nat}
    (hx : settle A s = ((after P A k x).search, (after P A k x).stage)) :
    Visited P A (⟨i, n.toNat, c + 1⟩ :: below) (fuel + 1) x
      (resume P A go s q ⟨j, l.frame, l.previous, false, none, [], len⟩ (c + 1)) := by
  obtain ⟨m, p, q', printed, hq', ha', hm⟩ := exists_resumed hP hl hq hpath ha hc ht hx
  have hstep : after P A (m + 1) x = step P A _ :=
    (after_succ _ x).trans (congrArg (step P A) hm)
  -- the choice is restored
  have hpos : ¬ n < 1 := by omega
  simp only [step, hq', onChoice, hpos, if_false, Bool.false_eq_true, List.isEmpty_nil, if_true,
    ← ha'.alike.scene] at hstep
  unfold resume
  cases hn : (s.turned (c + 1)).notify A (P.scene q) l.frame .restored with
  | mk t f =>
    have htp : t.path = ⟨i, n.toNat, c + 1⟩ :: below := by
      rw [Search.eq_told A hn, Search.told_path, turned_eq hpath]
    rw [hn] at hstep
    have stop : ∀ f, (after P A (m + 1) x).search = t ∧ (after P A (m + 1) x).stage =
        .executing (P.reply q' .stop)
          { (⟨j, l.frame, l.previous, false, none, [], len⟩ : Walk).stopped f with
            execution := s.paths, replayLength := (l.choices ++ [c + 1]).length } →
        Visited P A (⟨i, n.toNat, c + 1⟩ :: below) (fuel + 1) x
          (go t (P.reply q .stop)
            ((⟨j, l.frame, l.previous, false, none, [], len⟩ : Walk).stopped f)) :=
      fun f hx => hgo.stop ha' rfl hx (htp ▸ List.tail_suffix t.path) (by omega)
    cases f with
    | some f =>
      refine stop (some f) ?_
      rw [hstep]
      exact ⟨rfl, rfl⟩
    | none =>
      simp only at hstep ⊢
      by_cases hterm : t.terminated = true
      · simp only [hterm, if_true] at hstep ⊢
        refine stop none ?_
        rw [hstep]
        exact ⟨rfl, rfl⟩
      · simp only [hterm] at hstep ⊢
        have htracks : Tracks P t (P.reply q (.choose (c + 1)))
            ⟨j, l.frame, l.previous, false, none, [], len⟩ (after P A (m + 1) x) := by
          refine ⟨by rw [hstep]; rfl, ⟨P.reply q' (.choose (c + 1)), s.paths,
            (l.choices ++ [c + 1]).length,
            by rw [hstep]; rfl, ha'.reply _⟩, rfl, fun _ _ => ⟨rfl, _, hl.onward
              (.choose hq (c + 1) (by omega)), rfl, rfl, rfl, ?_⟩⟩
          have hne : n.toNat ≠ 0 := by omega
          simp [Place.choose, htp, PathEntry.choices, hc, hne]
        have hvisit := hgo htracks
        rw [if_neg (by simp), htp] at hvisit
        exact hvisit.of_after (by omega) (List.suffix_refl _)

/-- The loop follows the further alternatives of a choice as the recursion does.

**Proof sketch.** Induction on the alternatives. When everything below one of them has been
visited, the loop resumes the choice with the next one, or leaves it. -/
lemma visited_follow (hP : P.Reproducible) {fuel : Nat}
    {go : Search L κ → σ → Walk → Outcome L κ} (hgo : Simulated P A fuel go) {l : Place σ} {n : Int}
    {q : σ} (hl : P.Reaches l) (hq : P.next l.config = .choice n q) {i : Nat}
    {below : List PathEntry} (hc : l.choices = PathEntry.choices below) (j len : Nat)
    {x : Exploration σ L κ} (m : Nat) :
    ∀ {c : Nat} {r : Outcome L κ}, c + 1 + m = n.toNat →
      Visited P A (⟨i, n.toNat, c⟩ :: below) (fuel + 1) x r →
      Visited P A below (fuel + 1) x (follow P A go (below.length + 1) q
        ⟨j, l.frame, l.previous, false, none, [], len⟩ (List.range' (c + 1) m) r) := by
  induction m with
  | zero =>
    intro c r hcm h
    exact visited_close h (by simp [PathEntry.hasMore, ← hcm])
  | succ m ih =>
    intro c r hcm h
    rw [List.range'_succ]
    cases r with
    | ended s ex => exact ⟨h.meets, by simp [follow]⟩
    | lost s => exact ⟨h.meets, by simp [follow]⟩
    | back s =>
      obtain ⟨hpath, ht⟩ := h.path rfl
      obtain ⟨hall, hpart⟩ := eq_of_suffix_cons hpath
      simp only [follow]
      by_cases hlen : s.depth = below.length + 1
      · rw [if_pos hlen]
        cases h.meets with
        | settled hs =>
          exact ih (by omega) (visited_resume hP hgo hl hq (hall hlen) (by omega) hc ht
            (Option.some.inj hs))
      · rw [if_neg hlen]
        refine ⟨h.meets, fun {t} heq => ?_⟩
        obtain rfl : s = t := by simpa using heq
        exact ⟨hpart hlen, ht⟩

/-- The program makes a move that nobody sees, or learns something of its last instruction. -/
lemma visited_silent {fuel : Nat} {go : Search L κ → σ → Walk → Outcome L κ}
    (hgo : Simulated P A fuel go) {s : Search L κ} {p q : σ} {w v : Walk} {x : Exploration σ L κ}
    (h : Tracks P s p w x) {q' : σ} {j k : Nat} (ha : P.Twins q q')
    (hx : (after P A 1 x).search = s ∧
      (after P A 1 x).stage = .executing q' { v with execution := j, replayLength := k })
    (hw : v.stopping = w.stopping) (hr : v.replay = [])
    (hl : w.stopping = false → Located P s.path p w → Located P s.path q v) :
    Visited P A (if w.stopping then s.path.tail else s.path) (fuel + 1) x (go s q v) := by
  have ht : Tracks P s q v (after P A 1 x) :=
    ⟨hx.1, ⟨q', j, k, hx.2, ha⟩, hr, fun hw' ht => hl (hw ▸ hw') (h.located (hw ▸ hw') ht)⟩
  exact (hgo ht).of_after (Nat.le_refl _) (hw ▸ List.suffix_refl _)

omit [DecidableEq κ] in
/-- A place is left by a move that follows no alternative. -/
lemma Located.onward {path path' : List PathEntry} {p q : σ} {w w' : Walk}
    (h : Located P path p w) (hf : w'.failure = w.failure)
    (hpath : PathEntry.choices path' = PathEntry.choices path)
    (ho : ∀ l : Place σ, l.config = p → l.frame = w.frame → l.previous = w.previous →
      ∃ m, P.Onward l m ∧ m.config = q ∧ m.frame = w'.frame ∧ m.previous = w'.previous ∧
        m.choices = l.choices) : Located P path' q w' := by
  obtain ⟨hfail, l, hl, hlp, hlf, hlw, hlc⟩ := h
  obtain ⟨m, hm, hmq, hmf, hmw, hmc⟩ := ho l hlp hlf hlw
  exact ⟨hf.trans hfail, m, hl.onward hm, hmq, hmf, hmw, hmc.trans (hlc.trans hpath.symm)⟩

/-- At the end of an execution the last boundary of the path is left. -/
lemma endVisit_eq_back {s t : Search L κ} {q : σ} {w : Walk} {ending : Ending}
    (h : endVisit P A s q w ending = .back t) :
    t.path <:+ (if w.stopping then s.path.tail else s.path) ∧ t.terminated = false := by
  unfold endVisit at h
  cases hf : w.failure with
  | some f => simp [hf] at h
  | none =>
    simp only [hf] at h
    split at h
    · obtain ⟨-, hpath, ht⟩ := retreat_eq_back h
      rw [hpath]
      refine ⟨?_, ht⟩
      split
      · exact List.suffix_refl _
      · exact List.tail_suffix _
    · rename_i hstop
      have hw : w.stopping = false := by simp_all
      cases hfin : finishPath P A s q w with
      | mk v f =>
        rw [hfin] at h
        cases f with
        | some f => simp at h
        | none =>
          obtain ⟨hv, hpath, ht⟩ := retreat_eq_back h
          obtain ⟨k, -, rfl⟩ := finishPath_cases hfin hv
          rw [hpath]
          simp [hw, ht]

/-- The program has ended, and its last boundary is left. -/
lemma visited_ended {s : Search L κ} {p q : σ} {w : Walk} {x : Exploration σ L κ} {n : Nat}
    {ending : Ending} (h : Tracks P s p w x) (hp : P.next p = .ended ending q) :
    Visited P A (if w.stopping then s.path.tail else s.path) n x
      (conclude P A s q w ending) where
  meets := by
    obtain ⟨p', j, k, ha, hstep⟩ := h.exists_step (A := A)
    obtain ⟨q', hq', ha'⟩ := ha.exists_next hp
    refine .settled (n := 1) ?_
    refine (settled_conclude ha' h.replay j k s ending).trans ?_
    simp [hstep, step, hq', Move.withConfig]
  path := by
    intro t hback
    cases ending with
    | interrupted type message => simp [conclude] at hback
    | raised type message =>
      exact endVisit_eq_back (s := s.report A (raisedReport s.name type message)) hback
    | normal => exact endVisit_eq_back (s := s) hback
    | exit => exact endVisit_eq_back (s := s) hback
    | stopped => exact endVisit_eq_back (s := s) hback

/-- The first alternative of a choice is visited, and then the further ones are followed. -/
lemma visited_first (hP : P.Reproducible) {fuel : Nat}
    (hgo : Simulated P A fuel (visit P A fuel)) {s t : Search L κ} {p q q' : σ} {w : Walk}
    {x : Exploration σ L κ} {n : Int} {i j k : Nat} (h : Tracks P s p w x)
    (hp : P.next p = .choice n q) (hn : 1 ≤ n) (ha : P.Twins q q') (hw : w.stopping = false)
    (hs : s.terminated = false) (hpath : t.path = ⟨i, n.toNat, 0⟩ :: s.path)
    (hx : (after P A 1 x).search = t ∧ (after P A 1 x).stage =
      .executing (P.reply q' (.choose 0)) { w with execution := j, replayLength := k }) :
    Visited P A s.path (fuel + 1) x (follow P A (visit P A fuel) (s.path.length + 1) q w
      (List.range' 1 (n.toNat - 1)) (visit P A fuel t (P.reply q (.choose 0)) w)) := by
  obtain ⟨hfail, l, hl, rfl, hlf, hlw, hlc⟩ := h.located hw hs
  have hne : n.toNat ≠ 0 := by omega
  have htracks : Tracks P t (P.reply q (.choose 0)) w (after P A 1 x) := by
    refine ⟨hx.1, ⟨P.reply q' (.choose 0), j, k, hx.2, ha.reply _⟩, h.replay, fun _ _ =>
      ⟨hfail, _, hl.onward (.choose hp 0 (by omega)), rfl, hlf, hlw, ?_⟩⟩
    simp [Place.choose, hpath, PathEntry.choices, hlc, hne]
  have hfirst := (hgo htracks).of_after (Nat.le_refl _) (List.suffix_refl _)
  rw [hw, if_neg (by simp), hpath] at hfirst
  have hwalk : w = ⟨w.execution, l.frame, l.previous, false, none, [], w.replayLength⟩ := by
    rw [hlf, hlw, ← hw, ← hfail, ← h.replay]
  have hfollow := visited_follow hP hgo hl hp hlc w.execution w.replayLength (n.toNat - 1)
    (by omega) hfirst
  rwa [← hwalk] at hfollow

/-- The program has come to a choice.

**Proof sketch.** The boundary is entered in the same way. If the path goes on, everything below
the first alternative is visited and then the further alternatives are followed. -/
lemma visited_choice (hP : P.Reproducible) {fuel : Nat}
    (hgo : Simulated P A fuel (visit P A fuel)) {s : Search L κ} {p q : σ} {w : Walk}
    {x : Exploration σ L κ} {n : Int} (h : Tracks P s p w x) (hp : P.next p = .choice n q) :
    Visited P A (if w.stopping then s.path.tail else s.path) (fuel + 1) x
      (visit P A (fuel + 1) s p w) := by
  obtain ⟨p', j, k, ha, hstep⟩ := h.exists_step (A := A)
  obtain ⟨q', hq', ha'⟩ : ∃ q', P.next p' = .choice n q' ∧ P.Twins q q' := ha.exists_next hp
  simp only [step, hq'] at hstep
  by_cases hn : n < 1
  · simp only [visit, hp, hn, if_true]
    refine visited_silent hgo h (j := j) (k := k) (ha'.reply (.refuse n)) ?_ rfl h.replay
      fun _ hl => ?_
    · simp [hstep, onChoice, hn]
    · refine hl.onward rfl rfl fun l hlp hlf hlw => ?_
      exact ⟨_, .refuse (hlp ▸ hp) hn, rfl, hlf, hlw, rfl⟩
  cases hw : w.stopping with
  | true =>
    simp only [visit, hp, hn, hw, if_false, if_true]
    have hvisit := visited_silent hgo h (j := j) (k := k) (v := w) (ha'.reply .stop)
      (by simp [hstep, onChoice, hn, hw]) rfl h.replay fun hw' => by simp [hw] at hw'
    simpa [hw] using hvisit
  | false =>
    set b := Boundary.choice n.toNat with hb
    have hreach : s.reach A (P.scene q') w.frame b (P.fingerprint j q' w.frame b) =
        s.reach A (P.scene q) w.frame b (P.fingerprint w.execution q w.frame b) := by
      rw [← ha'.alike.scene, ← ha'.fingerprint w.execution j]
    simp only [onChoice, hn, hw, h.replay, ← hb, hreach, if_false, Bool.false_eq_true] at hstep
    simp only [visit, hp, hn, hw, ← hb, if_false, Bool.false_eq_true]
    cases hr : s.reach A (P.scene q) w.frame b (P.fingerprint w.execution q w.frame b) with
    | mk t r =>
      have htail : t.path.tail <:+ s.path := by
        rcases Search.reach_cases A hr with ⟨f, -, rfl, -⟩ | ⟨key, -, hadv⟩
        · exact List.tail_suffix _
        · exact Search.advance_path hadv ▸ List.suffix_refl _
      rw [hr] at hstep
      have stop : ∀ f, (after P A 1 x).search = t ∧ (after P A 1 x).stage =
          .executing (P.reply q' .stop) { w.stopped f with execution := j, replayLength := k } →
          Visited P A s.path (fuel + 1) x (visit P A fuel t (P.reply q .stop) (w.stopped f)) :=
        fun f hx => hgo.stop ha' h.replay hx htail (Nat.le_refl _)
      cases r with
      | failed f =>
        refine stop (some f) ?_
        rw [hstep]
        exact ⟨rfl, by simp [stopPath, Walk.stopped, h.replay]⟩
      | halt =>
        refine stop none ?_
        rw [hstep]
        exact ⟨rfl, by simp [stopPath, Walk.stopped, h.replay]⟩
      | onward =>
        obtain ⟨key, -, hadv⟩ := Search.advance_of_reach A hr (by simp)
        have hs := Search.terminated_of_advance hadv (Search.terminated_of_onward hadv)
        refine visited_first hP hgo (j := j) (k := k) h hp (by omega) ha' hw hs
          (Search.advance_path hadv) ?_
        rw [hstep, hw, h.replay]
        exact ⟨rfl, rfl⟩

/-- An instruction is executed. When everything below has been visited, the boundary before it is
left, if there is one. -/
lemma visited_proceed {fuel : Nat} (hgo : Simulated P A fuel (visit P A fuel))
    {s u : Search L κ} {p q q' : σ} {w : Walk} {x : Exploration σ L κ} {i : Instruction} {j k : Nat}
    (h : Tracks P s p w x) (hp : P.next p = .instruction i q) (ha : P.Twins q q')
    (hw : w.stopping = false) (hterm : u.terminated = false → s.terminated = false)
    (hpath : u.path = s.path ∨ ∃ e : PathEntry, e.options = 0 ∧ u.path = e :: s.path)
    (hx : (after P A 1 x).search = u ∧ (after P A 1 x).stage = .executing (P.reply q' .proceed)
      ⟨j, some i.frame, some i, false, w.failure, w.replay, k⟩) :
    Visited P A s.path (fuel + 1) x (close A (s.path.length + 1) (visit P A fuel u
      (P.reply q .proceed)
      ⟨w.execution, some i.frame, some i, false, w.failure, w.replay, w.replayLength⟩)) := by
  have htracks : Tracks P u (P.reply q .proceed)
      ⟨w.execution, some i.frame, some i, false, w.failure, w.replay, w.replayLength⟩
      (after P A 1 x) := by
    refine ⟨hx.1, ⟨P.reply q' .proceed, j, k, hx.2, ha.reply _⟩, h.replay, fun _ hu => ?_⟩
    refine (h.located hw (hterm hu)).onward rfl ?_ fun l hlp hlf hlw =>
      ⟨_, .instruction (hlp ▸ hp), rfl, rfl, rfl, rfl⟩
    rcases hpath with hpath | ⟨e, he, hpath⟩
    · rw [hpath]
    · simp [hpath, PathEntry.choices, he]
  have hvisit := (hgo htracks).of_after (Nat.le_refl _) (List.suffix_refl _)
  rw [if_neg (by simp)] at hvisit
  rcases hpath with hpath | ⟨e, he, hpath⟩
  · rw [hpath] at hvisit
    exact visited_close_of_lt hvisit (Nat.lt_succ_self _)
  · rw [hpath] at hvisit
    have hmore : e.hasMore = false := by simp [PathEntry.hasMore, he]
    exact visited_close hvisit hmore

/-- The program has come to an instruction.

**Proof sketch.** The last instruction is announced, and possibly a boundary, in the same way. A
boundary has no further alternatives, and is left when everything below has been visited. -/
lemma visited_instruction {fuel : Nat} (hgo : Simulated P A fuel (visit P A fuel))
    {s : Search L κ} {p q : σ} {w : Walk} {x : Exploration σ L κ} {i : Instruction}
    (h : Tracks P s p w x) (hp : P.next p = .instruction i q) :
    Visited P A (if w.stopping then s.path.tail else s.path) (fuel + 1) x
      (visit P A (fuel + 1) s p w) := by
  obtain ⟨p', j, k, ha, hstep⟩ := h.exists_step (A := A)
  obtain ⟨q', hq', ha'⟩ : ∃ q', P.next p' = .instruction i q' ∧ P.Twins q q' := ha.exists_next hp
  simp only [step, hq'] at hstep
  cases hw : w.stopping with
  | true =>
    simp only [visit, hp, hw, if_true]
    have hvisit := visited_silent hgo h (j := j) (k := k) (v := w) (ha'.reply .proceed)
      (by simp [hstep, onInstruction, hw]) rfl h.replay fun hw' => by simp [hw] at hw'
    simpa [hw] using hvisit
  | false =>
    set v : Walk :=
      ⟨w.execution, some i.frame, w.previous, false, w.failure, w.replay, w.replayLength⟩ with hv
    have hconc : ∀ replay, concludeStep P A s q'
        ⟨j, some i.frame, w.previous, false, w.failure, replay, k⟩ i = concludeStep P A s q v i :=
      fun replay => concludeStep_congr ha' (by rfl) (by rfl) s i
    simp only [onInstruction, hw, h.replay, List.isEmpty_nil, Bool.not_true, Bool.false_eq_true,
      if_false, hconc] at hstep
    simp only [visit, hp, hw, Bool.false_eq_true, if_false, ← hv]
    cases hc : concludeStep P A s q v i with
    | mk t r =>
      obtain ⟨hpath, hterm⟩ := concludeStep_path hc
      have htail : t.path.tail <:+ s.path := by
        rcases hpath with hpath | ⟨e, -, hpath⟩
        · exact hpath ▸ List.tail_suffix _
        · exact hpath ▸ List.suffix_refl _
      rw [hc] at hstep
      have stop : ∀ f (u : Search L κ), u.path = t.path → (after P A 1 x).search = u ∧
          (after P A 1 x).stage =
            .executing (P.reply q' .stop) { v.stopped f with execution := j, replayLength := k } →
          Visited P A s.path (fuel + 1) x (visit P A fuel u (P.reply q .stop) (v.stopped f)) :=
        fun f u hu hx => hgo.stop (w := v) ha' h.replay hx (hu ▸ htail) (Nat.le_refl _)
      cases r with
      | failed f =>
        refine stop (some f) t rfl ?_
        rw [hstep]
        exact ⟨rfl, by simp [stopPath, Walk.stopped, hv, h.replay]⟩
      | halt =>
        refine stop none t rfl ?_
        rw [hstep]
        exact ⟨rfl, by simp [stopPath, Walk.stopped, hv, h.replay]⟩
      | onward =>
        rw [show (P.scene q') = P.scene q from ha'.alike.scene.symm] at hstep
        cases hn : t.notify A (P.scene q) (some i.frame) (.executing i) with
        | mk u f =>
          have hu : u = t.told A (P.scene q) (some i.frame) (.executing i) := Search.eq_told A hn
          have hup : u.path = t.path := hu ▸ rfl
          simp only [hn] at hstep
          simp only [hn]
          cases f with
          | some f =>
            refine stop (some f) u hup ?_
            rw [hstep]
            exact ⟨rfl, by simp [stopPath, Walk.stopped, hv, h.replay]⟩
          | none =>
            by_cases hut : u.terminated = true
            · simp only [hut, if_true] at hstep ⊢
              refine stop none u hup ?_
              rw [hstep]
              exact ⟨rfl, by simp [stopPath, Walk.stopped, hv, h.replay]⟩
            · simp only [hut, Bool.false_eq_true, if_false] at hstep ⊢
              refine visited_proceed hgo (j := j) (k := k) h hp ha' hw ?_ (hup ▸ hpath) ?_
              · exact fun hu' => hterm (Search.terminated_of_told A (hu ▸ hu'))
              · rw [hstep]
                exact ⟨rfl, by simp [h.replay]⟩

/-- The loop goes along with a visit.

**Proof sketch.** Induction on the fuel, with one case for each move of the program. -/
theorem visit_simulated (hP : P.Reproducible) (fuel : Nat) :
    Simulated P A fuel (visit P A fuel) := by
  induction fuel with
  | zero =>
    intro s p w x h
    obtain ⟨p', j, k, hstage, -⟩ := h.stage
    obtain rfl : x.search = s := h.search
    exact ⟨.lost (n := 0) (Nat.le_refl _) (by simp [hstage]), by simp [visit]⟩
  | succ fuel hgo =>
    intro s p w x h
    obtain ⟨p', j, k, ha, hstep⟩ := h.exists_step (A := A)
    cases hp : P.next p with
    | internal q =>
      obtain ⟨q', hq', ha'⟩ : ∃ q', P.next p' = .internal q' ∧ P.Twins q q' := ha.exists_next hp
      simp only [visit, hp]
      refine visited_silent hgo h (j := j) (k := k) ha' ?_ rfl h.replay fun _ hl => ?_
      · simp [hstep, step, hq']
      · exact hl.onward rfl rfl fun l hlp hlf hlw =>
          ⟨_, .internal (hlp ▸ hp), rfl, hlf, hlw, rfl⟩
    | print text q =>
      obtain ⟨q', hq', ha'⟩ : ∃ q', P.next p' = .print text q' ∧ P.Twins q q' :=
        ha.exists_next hp
      simp only [visit, hp]
      refine visited_silent hgo h (j := j) (k := k) ha' ?_ rfl h.replay fun _ hl => ?_
      · simp [hstep, step, hq']
      · exact hl.onward rfl rfl fun l hlp hlf hlw =>
          ⟨_, .print (hlp ▸ hp), rfl, hlf, hlw, rfl⟩
    | effect e q =>
      obtain ⟨q', hq', ha'⟩ : ∃ q', P.next p' = .effect e q' ∧ P.Twins q q' := ha.exists_next hp
      simp only [visit, hp]
      refine visited_silent hgo h (j := j) (k := k) ha' ?_ ?_ ?_ fun hw hl => ?_
      · cases hw : w.stopping <;> simp [hstep, step, hq', hw]
      · split <;> rfl
      · split <;> exact h.replay
      · simp only [hw, Bool.false_eq_true, if_false]
        exact hl.onward rfl rfl fun l hlp hlf hlw =>
          ⟨_, .effect (hlp ▸ hp), rfl, hlf, by simp [hlw], rfl⟩
    | terminate q =>
      obtain ⟨q', hq', ha'⟩ : ∃ q', P.next p' = .terminate q' ∧ P.Twins q q' := ha.exists_next hp
      simp only [visit, hp]
      have ht : Tracks P { s with terminated := true } q w (after P A 1 x) := by
        refine ⟨?_, ⟨q', j, k, ?_, ha'⟩, h.replay, by simp⟩
        · simp [hstep, step, hq']
        · simp [hstep, step, hq']
      exact (hgo ht).of_after (Nat.le_refl _) (List.suffix_refl _)
    | instruction i q => exact visited_instruction hgo h hp
    | choice n q => exact visited_choice hP hgo h hp
    | ended ending q =>
      have hended := visited_ended (A := A) (n := fuel + 1) h hp
      simpa only [visit, hp] using hended

/-- The loop goes along with the whole recursion.

**Proof sketch.** The first execution is in step with the visit of the whole tree. -/
theorem explore_simulated (hP : P.Reproducible) (fuel : Nat) (name : String)
    (depthLimit maxStates : Option Int) (outside : Scene) (l : L) :
    Meets P A fuel (ofSearch (.new name depthLimit maxStates outside l))
      (explore P A fuel (.new name depthLimit maxStates outside l)) := by
  set s : Search L κ := .new name depthLimit maxStates outside l with hs
  have hbegin : after P A 1 (ofSearch s) = ⟨(begin A s : _ × Stage σ).1, (begin A s).2, #[]⟩ := rfl
  unfold explore
  unfold begin at hbegin
  cases hn : s.notify A s.outside none .started with
  | mk t f =>
    have ht : t = s.told A s.outside none .started := Search.eq_told A hn
    rw [hn] at hbegin
    cases f with
    | some f => exact .settled (n := 1) (by rw [hbegin]; rfl)
    | none =>
      simp only at hbegin ⊢
      by_cases hterm : t.terminated = true
      · rw [if_pos hterm]
        refine .settled (n := 2) ((settled_last (σ := σ) t).trans ?_)
        rw [after_succ, hbegin]
        simp [step, launch, hterm]
      · rw [if_neg hterm]
        have hterm : t.terminated = false := by simpa using hterm
        have hlaunch : after P A 2 (ofSearch s) =
            ⟨t.unasked, .executing (P.start t.paths) (newWalk t), #[]⟩ := by
          rw [after_succ, hbegin, step_launching hterm]
        have hwalk : newWalk t = ⟨t.paths, none, none, false, none, [], 0⟩ := by rw [ht]; rfl
        have htracks : Tracks P t.unasked (P.start 0) ⟨0, none, none, false, none, [], 0⟩
            (after P A 2 (ofSearch s)) := by
          refine ⟨by rw [hlaunch], ⟨P.start t.paths, t.paths, 0, by rw [hlaunch, hwalk],
            hP 0 t.paths⟩, rfl,
            fun _ _ => ⟨rfl, P.startPlace 0, .refl, rfl, rfl, rfl, ?_⟩⟩
          rw [ht]
          rfl
        have hvisit := (visit_simulated hP fuel htracks).of_after (Nat.le_add_right fuel 2)
          (List.suffix_refl _)
        generalize visit P A fuel t.unasked (P.start 0) ⟨0, none, none, false, none, [], 0⟩ = r
          at hvisit
        cases r with
        | back u =>
          have hu : u.path = [] := by
            have hpath := (hvisit.path rfl).1
            rw [ht] at hpath
            exact List.suffix_nil.mp hpath
          cases hvisit.meets with
          | settled h =>
            refine .settled ((settled_last (σ := σ) u).trans (Eq.trans ?_ h))
            simp [Outcome.settled, settle, hu]
        | ended u e => exact hvisit.meets
        | lost u => exact hvisit.meets

end Loop

end Exploration

end StateAtlas
