import StateAtlas.Proofs.Search.Sequel
import StateAtlas.Search.Tenure

set_option autoImplicit false

/-!
# Failures of listeners

A failure of a listener surfaces: the program is told to stop, and whatever it does then, nothing
is delivered any more, and when it has ended the run fails with that very failure. Only a signal to
the whole run that leaves the program takes its place, and so does an exception of which no report
can be made. In any case the office of answering choices is given back to the search that held it
before.

## Main definitions

* `StateAtlas.Audience.faulty` — an audience that fails at some notices.
* `StateAtlas.Tenure.Held` — the office is where it should be.

## Main results

* `StateAtlas.Tenure.held_after` — the office is where it should be in every run.
* `StateAtlas.Exploration.interrupted_after` — what interrupts a run leaves the program.
* `StateAtlas.Tenure.failure_surfaces` — a failure surfaces.
-/

namespace StateAtlas

variable {σ L κ ι : Type}

/-- An audience that fails at some notices. -/
def Audience.faulty (fails : Notice → Bool) : Audience Unit where
  hear _ _ n := ((), if fails n then .failing (.requested "listener bug") else .none)
  report _ _ := ()

/-! ## Interrupted runs -/

/-- What has interrupted the run. -/
def Stage.interruption? : Stage σ → Option (ExceptionClass × String)
  | .ended (.interrupted type message) => some (type, message)
  | _ => none

lemma Stage.eq_ended_of_interruption? {stage : Stage σ} {i : ExceptionClass × String}
    (h : stage.interruption? = some i) : stage = .ended (.interrupted i.1 i.2) := by
  unfold Stage.interruption? at h
  split at h
  · rw [← Option.some.inj h]
  · simp at h

/-- What interrupts the run when an execution ends. -/
def Ending.interruption? : Ending → Option (ExceptionClass × String)
  | .interrupted type message => some (type, message)
  | _ => none

namespace Exploration

open Search Transcript

variable {P : Program σ κ} {A : Audience L}

lemma interruption_finish (s : Search L κ) :
    (finish A s : _ × Stage σ).2.interruption? = none := by
  unfold finish
  split <;> rfl

lemma interruption_afterPath (s : Search L κ) :
    (afterPath A s : _ × Stage σ).2.interruption? = none := by
  simp only [afterPath]
  split
  · exact interruption_finish _
  · split
    · rfl
    · exact interruption_finish _
    · rfl

variable [DecidableEq κ]

lemma interruption_onInstruction (s : Search L κ) (p : σ) (w : Walk) (i : Instruction) :
    (onInstruction P A s p w i).2.interruption? = none := by
  unfold onInstruction
  split
  · rfl
  · simp only
    split
    · rfl
    · split
      · rfl
      · rfl
      · split
        · rfl
        · split <;> rfl

lemma interruption_onChoice (s : Search L κ) (p : σ) (w : Walk) (n : Int) :
    (onChoice P A s p w n).2.interruption? = none := by
  unfold onChoice
  split
  · rfl
  · split
    · rfl
    · split
      · simp only
        split
        · split
          · rfl
          · split <;> rfl
        · rfl
      · simp only
        split <;> rfl

/-- A run is interrupted at the end of an execution only by what leaves the program. -/
lemma interruption_onEnd (s : Search L κ) (p : σ) (w : Walk) (ending : Ending) :
    (onEnd P A s p w ending).2.interruption? = ending.interruption? := by
  by_cases hi : ∃ type message, ending = .interrupted type message
  · obtain ⟨type, message, rfl⟩ := hi
    rfl
  · have hi : ∀ type message, ending ≠ .interrupted type message :=
      fun type message h => hi ⟨type, message, h⟩
    obtain ⟨t, -, hend⟩ := onEnd_eq (P := P) (A := A) s p w hi
    have hnone : ending.interruption? = none := by
      cases ending with
      | interrupted type message => exact absurd rfl (hi type message)
      | _ => rfl
    rw [hend, hnone, endPath]
    split
    · rfl
    · split
      · exact interruption_afterPath _
      · split
        · exact interruption_afterPath _
        · split
          · rfl
          · exact interruption_afterPath _

/-- A move that interrupts the run is the end of an execution, and delivers nothing. -/
lemma interruption_step {x : Exploration σ L κ} {i : ExceptionClass × String}
    (h : (step P A x).stage.interruption? = some i) :
    x.stage.interruption? = some i ∨
      ∃ p w ending q, x.stage = .executing p w ∧ P.next p = .ended ending q ∧
        ending.interruption? = some i ∧
        (step P A x).search.listeners = x.search.listeners := by
  obtain ⟨s, stage, printed⟩ := x
  cases stage with
  | ended e => exact .inl h
  | waiting =>
    simp only [step, begin] at h
    split at h <;> simp [Stage.interruption?] at h
  | launching =>
    simp only [step, launch] at h
    split at h
    · simp [interruption_finish] at h
    · simp [Stage.interruption?] at h
  | executing p w =>
    cases hp : P.next p with
    | ended ending q =>
      simp only [step, hp, interruption_onEnd] at h
      refine .inr ⟨p, w, ending, q, rfl, hp, h, ?_⟩
      cases ending with
      | interrupted type message => simp only [step, hp]; rfl
      | _ => simp [Ending.interruption?] at h
    | instruction i q => simp [step, hp, interruption_onInstruction] at h
    | choice n q => simp [step, hp, interruption_onChoice] at h
    | effect e q =>
      simp only [step, hp] at h
      split at h <;> simp [Stage.interruption?] at h
    | internal q | print text q | terminate q => simp [step, hp, Stage.interruption?] at h

/-- A run that has been interrupted has been so by what left the program at some move, since which
nothing has been delivered. -/
theorem interrupted_after {x : Exploration σ L κ} {i : ExceptionClass × String} {n : Nat}
    (hx : x.stage.interruption? = none)
    (h : (after P A n x).stage.interruption? = some i) :
    ∃ m < n, ∃ p w ending q, (after P A m x).stage = .executing p w ∧
      P.next p = .ended ending q ∧ ending.interruption? = some i ∧
      (after P A n x).search.listeners = (after P A m x).search.listeners := by
  induction n with
  | zero => simp [hx] at h
  | succ n ih =>
    rw [after_succ] at h ⊢
    rcases interruption_step h with h' | ⟨p, w, ending, q, hstage, hp, hi, hlisteners⟩
    · obtain ⟨m, hm, hcause⟩ := ih h'
      rw [step_ended (Stage.eq_ended_of_interruption? h')]
      exact ⟨m, by omega, hcause⟩
    · exact ⟨n, by omega, p, w, ending, q, hstage, hp, hi, hlisteners⟩

/-- A search surfaces a failure by having ended with it, or by keeping it until the program has
been left. -/
lemma Stage.eq_of_fault? {stage : Stage σ} {f : Fault} (h : stage.fault? = some f) :
    stage = .ended (.failed f) ∨ ∃ p w, stage = .executing p w ∧ w.failure = some f := by
  cases stage with
  | executing p w => exact .inr ⟨p, w, rfl, h⟩
  | ended e =>
    cases e with
    | failed f' => exact .inl (by rw [Option.some.inj h])
    | _ => simp [Stage.fault?] at h
  | _ => simp [Stage.fault?] at h

section Runs

variable {name : String} {depthLimit maxStates : Option Int} {outside : Scene} {l : L} {n : Nat}
  {later earlier : Transcript} {d : Delivery} {r : Reaction} {f : Fault}

/-- A delivery that has failed is the last one, and its failure surfaces unless the run is
interrupted. -/
lemma surfaces_of_failed
    (h : (transcribedAfter P A name depthLimit maxStates outside l n).search.listeners.2 =
      later ++ (d, r) :: earlier)
    (hr : r.failure = some f) :
    later = [] ∧
      ((transcribedAfter P A name depthLimit maxStates outside l n).stage.fault? = some f ∨
        (transcribedAfter P A name depthLimit maxStates outside l n).stage.interruption? ≠
          none) := by
  obtain rfl := eq_nil_of_failed h (by simp [hr])
  obtain ⟨-, hsurface⟩ : _ ∧ ((transcribedAfter P A name depthLimit maxStates outside l
      n).stage.fault? = Transcript.fault? (transcribedAfter P A name depthLimit maxStates outside l
        n).search.listeners.2 ∨ _) := surfaces_after n
  refine ⟨rfl, ?_⟩
  rcases hsurface with hf | ⟨type, message, hstage⟩ | ⟨hnone, -⟩
  · rw [hf, h]
    exact .inl hr
  · exact .inr (by simp [hstage, Stage.interruption?])
  · rw [h] at hnone
    exact absurd (hr.symm.trans hnone) (by simp)

/-- Once the program, which is being told to stop, has ended, the failure surfaces. -/
lemma failed_of_ended {p q : σ} {w : Walk} {ending : Ending} {k : Nat}
    (hx : (transcribedAfter P A name depthLimit maxStates outside l n).stage = .executing p w)
    (hf : w.failure = some f) (hw : w.stopping = true) (hk : P.Lasts p k)
    (hp : P.next (P.drift^[k] p) = .ended ending q) (hi : ending.interruption? = none) :
    (transcribedAfter P A name depthLimit maxStates outside l (n + k + 1)).stage =
      .ended (.failed f) := by
  have hi : ∀ type message, ending ≠ .interrupted type message := by
    rintro type message rfl
    simp [Ending.interruption?] at hi
  rw [transcribedAfter] at hx
  generalize hy : after P A.transcribed n (ofSearch (.new name depthLimit maxStates outside
    (l, []))) = y at hx
  obtain ⟨s, stage, printed⟩ := y
  obtain rfl : stage = .executing p w := hx
  obtain ⟨printed', hdrift⟩ := after_stopping (A := A.transcribed) hw s p printed hk
  obtain ⟨t, -, -, hend⟩ := onEnd_of_stopping (P := P) (A := A.transcribed) hw
    { s with terminated := s.terminated || P.resigns p k } q hi
  rw [transcribedAfter, after_succ, Nat.add_comm, after_add, hy, hdrift]
  simp only [step, hp, hend, letThrough, hf]

/-- A run that has ended has delivered nothing after the failure. -/
lemma transcript_of_ended {m : Nat} {e : Exit}
    (hm : (transcribedAfter P A name depthLimit maxStates outside l m).stage = .ended e)
    (h : (transcribedAfter P A name depthLimit maxStates outside l n).search.listeners.2 =
      (d, r) :: earlier)
    (hr : r.failure = some f) :
    (transcribedAfter P A name depthLimit maxStates outside l m).search.listeners.2 =
      (d, r) :: earlier := by
  rcases le_total m n with hmn | hnm
  · rw [← h, transcribedAfter, transcribedAfter, after_of_over hm hmn]
  · obtain ⟨new, hnew⟩ := transcript_suffix (P := P) (A := A) (l := l) hnm
    rw [h] at hnew
    obtain ⟨rfl, -⟩ := surfaces_of_failed hnew.symm hr
    exact hnew.symm

/-- A run that has ended has failed with the failure, unless the program has been left by something
that interrupts the run after it had been told to stop. -/
lemma exit_of_failed {e : Exit}
    (he : (transcribedAfter P A name depthLimit maxStates outside l n).stage = .ended e)
    (h : (transcribedAfter P A name depthLimit maxStates outside l n).search.listeners.2 =
      (d, r) :: earlier)
    (hr : r.failure = some f) :
    e = .failed f ∨ ∃ type message m p w ending q, e = .interrupted type message ∧
      (transcribedAfter P A name depthLimit maxStates outside l m).stage = .executing p w ∧
      w.failure = some f ∧ P.next p = .ended ending q ∧
      ending.interruption? = some (type, message) := by
  rw [← List.nil_append ((d, r) :: earlier)] at h
  obtain ⟨-, hsurface⟩ := surfaces_of_failed h hr
  rw [he] at hsurface
  cases e with
  | failed f' => exact .inl (by simpa [Stage.fault?, Stage.interruption?] using hsurface)
  | completed => simp [Stage.fault?, Stage.interruption?] at hsurface
  | interrupted type message =>
    have hi : (transcribedAfter P A name depthLimit maxStates outside l n).stage.interruption? =
        some (type, message) := by rw [he]; rfl
    obtain ⟨m, -, p, w, ending, q, hstage, hp, hending, hlisteners⟩ :=
      interrupted_after (x := ofSearch _) rfl hi
    -- what left the program left it after the failure
    have hm : (transcribedAfter P A name depthLimit maxStates outside l m).search.listeners.2 =
        [] ++ (d, r) :: earlier := by rw [← h, transcribedAfter, transcribedAfter, hlisteners]
    have hw : w.failure = some f := by
      rcases (surfaces_of_failed hm hr).2 with hf | hi
      · rw [transcribedAfter, hstage] at hf
        exact hf
      · rw [transcribedAfter, hstage] at hi
        exact absurd rfl hi
    exact .inr ⟨type, message, m, p, w, ending, q, rfl, hstage, hw, hp, hending⟩

end Runs

end Exploration

/-! ## The office -/

namespace Tenure

variable {P : Program σ κ} {A : Audience L} [DecidableEq κ]

variable (P A) in
/-- The search after a number of moves. -/
def after (n : Nat) (x : Tenure σ L κ ι) : Tenure σ L κ ι := (step P A)^[n] x

lemma after_succ (n : Nat) (x : Tenure σ L κ ι) :
    after P A (n + 1) x = step P A (after P A n x) := Function.iterate_succ_apply' _ n x

lemma after_add (m n : Nat) (x : Tenure σ L κ ι) :
    after P A (m + n) x = after P A m (after P A n x) := Function.iterate_add_apply _ m n x

@[simp] lemma exploration_step (x : Tenure σ L κ ι) :
    (x.step P A).exploration = x.exploration.step P A := by
  simp only [step]
  split <;> rfl

/-- The office makes no difference to the moves of the search. -/
@[simp] lemma exploration_after (n : Nat) (x : Tenure σ L κ ι) :
    (after P A n x).exploration = x.exploration.after P A n := by
  induction n with
  | zero => rfl
  | succ n ih => rw [after_succ, exploration_step, ih, Exploration.after_succ]

/-- A search holds the office during its executions, and remembers who held it before; else it is
held by that one. -/
def Held (self : ι) (previous : Option ι) (x : Tenure σ L κ ι) : Prop :=
  x.self = self ∧
    if x.exploration.stage.inOffice then x.holder = some self ∧ x.predecessor = previous
    else x.holder = previous

/-- A move leaves the office where it should be. -/
lemma held_step {self : ι} {previous : Option ι} {x : Tenure σ L κ ι}
    (h : x.Held self previous) : (x.step P A).Held self previous := by
  obtain ⟨rfl, h⟩ := h
  cases hx : x.exploration.stage.inOffice with
  | false =>
    have h : x.holder = previous := by simpa [hx] using h
    cases hy : (x.exploration.step P A).stage.inOffice with
    | false => simpa [Held, step, hx, hy] using h
    | true => simpa [Held, step, hx, hy] using h
  | true =>
    obtain ⟨hself, hprevious⟩ : x.holder = some x.self ∧ x.predecessor = previous := by
      simpa [hx] using h
    cases hy : (x.exploration.step P A).stage.inOffice with
    | false => simpa [Held, step, hx, hy] using hprevious
    | true => simp [Held, step, hx, hy, hself, hprevious]

/-- In every run the office is where it should be. -/
theorem held_after {self : ι} {previous : Option ι} {x : Tenure σ L κ ι}
    (h : x.Held self previous) (n : Nat) : (after P A n x).Held self previous := by
  induction n with
  | zero => exact h
  | succ n ih =>
    rw [after_succ]
    exact held_step ih

/-- A run that ends has made a number of moves. -/
lemma run_eq_some {fuel : Nat} : ∀ {x y : Tenure σ L κ ι} {e : Exit},
    run P A fuel x = (y, some e) → ∃ n, y = after P A n x ∧ y.exploration.stage = .ended e := by
  induction fuel with
  | zero => intro x y e h; simp [run] at h
  | succ fuel ih =>
    intro x y e h
    rw [run] at h
    split at h
    · rename_i e' he
      obtain ⟨rfl, he'⟩ := Prod.mk.inj h
      obtain rfl := Option.some.inj he'
      exact ⟨0, rfl, he⟩
    · obtain ⟨n, hy, he⟩ := ih h
      exact ⟨n + 1, by rw [hy, after_add]; rfl, he⟩

/-! ## Runs -/

section Runs

open Transcript

variable {self : ι} {previous : Option ι} {name : String} {depthLimit maxStates : Option Int}
  {outside : Scene} {l : L} {n : Nat} {later earlier : Transcript} {d : Delivery} {r : Reaction}
  {f : Fault}

variable (P A self previous name depthLimit maxStates outside l) in
/-- The search after a number of moves, with what has been delivered to its listeners and how they
reacted; before it choices were put to another one. -/
def tenureAfter (n : Nat) : Tenure σ (L × Transcript) κ ι :=
  after P A.transcribed n (.ofSearch self previous (.new name depthLimit maxStates outside (l, [])))

@[simp] lemma exploration_tenureAfter (n : Nat) :
    (tenureAfter P A self previous name depthLimit maxStates outside l n).exploration =
      Exploration.transcribedAfter P A name depthLimit maxStates outside l n :=
  exploration_after n _

/-- The office after a number of moves. -/
lemma holder_tenureAfter (n : Nat) :
    (tenureAfter P A self previous name depthLimit maxStates outside l n).holder =
      if (Exploration.transcribedAfter P A name depthLimit maxStates outside l n).stage.inOffice
      then some self else previous := by
  have hheld : (tenureAfter P A self previous name depthLimit maxStates outside l n).Held self
      previous := held_after (x := .ofSearch self previous _) ⟨rfl, rfl⟩ n
  obtain ⟨-, hheld⟩ := hheld
  rw [exploration_tenureAfter] at hheld
  split at hheld
  · rename_i hin
    rw [if_pos hin, hheld.1]
  · rename_i hin
    rw [if_neg hin, hheld]

/-- A failure surfaces, in every run. Nothing is delivered after it, so that no state is discovered.
The run has failed with it, or it is interrupted, or the program is being told to stop, and the run
fails with it as soon as the program has ended in a way a report can be made of. A run that ends
fails with it, unless the program, which has been told to stop, has been left by something that
interrupts the run. Choices are put to the search during its executions and to the previous one
afterwards.

**Proof sketch.** That the last failure is the one that surfaces is an invariant of the moves,
`surfaces_after`. A stopped program is not looked at, `after_stopping`, and what it ends with makes
no difference, `onEnd_of_stopping`. The office is that of the stage, `held_after`. -/
theorem failure_surfaces
    (h : (tenureAfter P A self previous name depthLimit maxStates outside l
      n).exploration.search.listeners.2 = later ++ (d, r) :: earlier)
    (hr : r.failure = some f) :
    let x := tenureAfter P A self previous name depthLimit maxStates outside l
    later = [] ∧
      (x n).exploration.search.seen.size = (Log.discovered (log ((d, r) :: earlier))).length ∧
      (x n).holder = (if (x n).exploration.stage.inOffice then some self else previous) ∧
      ((x n).exploration.stage = .ended (.failed f) ∨
        (x n).exploration.stage.interruption? ≠ none ∨
        ∃ p w, (x n).exploration.stage = .executing p w ∧ w.stopping = true ∧
          ∀ k ending q, P.Lasts p k → P.next (P.drift^[k] p) = .ended ending q →
            ending.interruption? = none →
              (x (n + k + 1)).exploration.stage = .ended (.failed f)) ∧
      ∀ fuel y e, run P A.transcribed fuel (x 0) = (y, some e) →
        y.exploration.search.listeners.2 = (d, r) :: earlier ∧ y.holder = previous ∧
          (e = .failed f ∨ ∃ type message m p w ending q, e = .interrupted type message ∧
            (x m).exploration.stage = .executing p w ∧ w.failure = some f ∧
            P.next p = .ended ending q ∧ ending.interruption? = some (type, message)) := by
  intro x
  simp only [x, exploration_tenureAfter] at h ⊢
  obtain ⟨rfl, hsurface⟩ := Exploration.surfaces_of_failed h hr
  refine ⟨rfl, ?_, holder_tenureAfter n, ?_, fun fuel y e hrun => ?_⟩
  · rw [Exploration.size_seen, h, List.nil_append]
  · rcases hsurface with hf | hi
    · rcases Exploration.Stage.eq_of_fault? hf with hstage | ⟨p, w, hstage, hw⟩
      · exact .inl hstage
      · have ho : (Exploration.transcribedAfter P A name depthLimit maxStates outside l
            n).stage.Orderly := Exploration.orderly_transcribedAfter n
        rw [hstage] at ho
        have hstop : w.stopping = true := ho (by simp [hw])
        exact .inr (.inr ⟨p, w, hstage, hstop, fun k ending q hk hp hi =>
          Exploration.failed_of_ended hstage hw hstop hk hp hi⟩)
    · exact .inr (.inl hi)
  · obtain ⟨m, rfl, he⟩ : ∃ m, y = x m ∧ y.exploration.stage = .ended e := run_eq_some hrun
    simp only [x, exploration_tenureAfter] at he ⊢
    have hend := Exploration.transcript_of_ended he h hr
    refine ⟨hend, by rw [holder_tenureAfter, he]; rfl, ?_⟩
    exact Exploration.exit_of_failed he hend hr

/-- The search of the stubborn program with a listener that fails at the first boundary, while
choices are put to a search called `outer`. -/
def stubbornFailing (n : Nat) : Tenure Nat (Unit × Transcript) Nat String :=
  tenureAfter Exploration.stubborn (Audience.faulty fun n => EventKind.ofNotice? n = some .advanced)
    "stubborn" (some "outer") "stubborn" none none ⟨.empty, .empty, #[]⟩ () n

/-- The stubborn program catches the signal to stop twice and ends with an exception, and the run
fails with the failure of the listener. -/
theorem failure_surfaces_stubborn :
    ∃ (d : Delivery) (r : Reaction) (earlier : Transcript) (f : Fault),
      (stubbornFailing 3).exploration.search.listeners.2 = [] ++ (d, r) :: earlier ∧
      r.failure = some f ∧
      ∃ y e, run Exploration.stubborn (Audience.faulty fun n =>
          EventKind.ofNotice? n = some .advanced).transcribed 10 (stubbornFailing 0) = (y, some e) ∧
        y.exploration.search.listeners.2 = (d, r) :: earlier ∧ y.holder = some "outer" ∧
          e = .failed f := by
  have hfailures : (stubbornFailing 3).exploration.search.listeners.2.map (·.2.failure) =
      [some (.requested "listener bug"), none] := by decide +kernel
  have hexit : (run Exploration.stubborn (Audience.faulty fun n =>
      EventKind.ofNotice? n = some .advanced).transcribed 10 (stubbornFailing 0)).2 =
        some (.failed (.requested "listener bug")) := by decide +kernel
  obtain ⟨⟨d, r⟩, earlier, h, hr, -⟩ := List.map_eq_cons_iff.mp hfailures
  rw [← List.nil_append ((d, r) :: earlier)] at h
  obtain ⟨-, -, -, -, hrun⟩ := failure_surfaces h hr
  obtain ⟨hend, hholder, -⟩ := hrun 10 _ _ (Prod.ext rfl hexit)
  exact ⟨d, r, earlier, _, h, hr, _, _, Prod.ext rfl hexit, hend, hholder, rfl⟩

/-- The search of `blurts` with a limit on the depth, which stops it at its choice, and a listener
that fails when it hears of the limit. -/
def blurtsFailing (n : Nat) : Exploration Process (Unit × Transcript) (List Frozen.Mark) :=
  Exploration.transcribedAfter Exploration.blurts.program
    (Audience.faulty fun n => EventKind.ofNotice? n = some .constraint) "blurts" (some 1) none
    ⟨.empty, .empty, #[]⟩ () n

/-- A failure need not surface: after the failure of a listener an exception that cannot be written
leaves `blurts`, and the run fails with its report instead. -/
theorem failure_not_surfacing :
    ∃ (d : Delivery) (r : Reaction) (earlier : Transcript) (f : Fault) (p : Process) (e : Value),
      (blurtsFailing 68).search.listeners.2 = (d, r) :: earlier ∧ r.failure = some f ∧
      (blurtsFailing 68).stage.stopped? = some p ∧ Exploration.leaving? p = some e ∧
      p.heap.isInstance e (.ofType "Exception") = true ∧
      ∀ n, 70 ≤ n → (blurtsFailing n).stage =
        .ended (.interrupted ⟨"ValueError", false⟩ Fault.integerTooLong.message) := by
  have hfailure : (Transcript.fault? (blurtsFailing 68).search.listeners.2).isSome = true := by
    decide +kernel
  have hleaving : ((blurtsFailing 68).stage.stopped?.bind fun p => (Exploration.leaving? p).map
      fun e => p.heap.isInstance e (.ofType "Exception")) = some true := by decide +kernel
  have hexit : (blurtsFailing 70).stage.exit? =
      some (.interrupted ⟨"ValueError", false⟩ Fault.integerTooLong.message) := by decide +kernel
  obtain ⟨f, hf⟩ := Option.isSome_iff_exists.mp hfailure
  obtain ⟨⟨d, r⟩, hhead, hr⟩ := Option.bind_eq_some_iff.mp hf
  obtain ⟨earlier, h⟩ := List.head?_eq_some_iff.mp hhead
  obtain ⟨p, hp, hleaving⟩ := Option.bind_eq_some_iff.mp hleaving
  obtain ⟨e, he, hexception⟩ := Option.map_eq_some_iff.mp hleaving
  have hstage := Stage.eq_ended_of_exit? hexit
  refine ⟨d, r, earlier, f, p, e, h, hr, hp, he, hexception, fun n hn => ?_⟩
  have hafter : blurtsFailing n = blurtsFailing 70 := Exploration.after_of_over hstage hn
  rw [hafter, hstage]

end Runs

end Tenure

end StateAtlas
