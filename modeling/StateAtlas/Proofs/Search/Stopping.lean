import StateAtlas.Proofs.Code.Request
import StateAtlas.Proofs.Program.Coins
import StateAtlas.Proofs.Search.Act
import StateAtlas.Search.Listener

set_option autoImplicit false

/-!
# Programs that have been told to stop

A program may catch the signal to stop and go on. The search does not look at what it does then: it
answers every choice with the signal again, and waits for the end of the program. When that comes,
in whatever way, the search goes back as if the program had let the signal through; at most an
exception has been reported before.

## Main definitions

* `StateAtlas.Program.drift` — what a program does that has been told to stop.
* `StateAtlas.Program.resigns` — whether it asks for the end of the whole search meanwhile.
* `StateAtlas.Audience.Ignores` — an audience to which reports are nothing.

## Main results

* `StateAtlas.Exploration.after_stopping` — what the search makes of a drifting program.
* `StateAtlas.Listeners.ignores_reports` — the listeners of a run take no notice of reports.
* `StateAtlas.Exploration.stopped_path_over` — a stopped path stays stopped, in every run.
-/

namespace StateAtlas

variable {σ L κ : Type}

/-! ## What a stopped program does -/

namespace Program

variable (P : Program σ κ)

/-- A program that has been told to stop makes a move: a choice is answered with the signal again,
unless there is nothing to choose from, and everything else goes on. -/
def drift (p : σ) : σ :=
  match P.next p with
  | .internal q | .print _ q | .effect _ q | .terminate q => q
  | .instruction _ q => P.reply q .proceed
  | .choice n q => P.reply q (if n < 1 then .refuse n else .stop)
  | .ended _ _ => p

/-- The next move asks for the end of the whole search. -/
def quits (p : σ) : Bool :=
  match P.next p with
  | .terminate _ => true
  | _ => false

/-- One of the next moves of a drifting program asks for the end of the whole search. -/
def resigns (p : σ) (k : Nat) : Bool := (List.range k).any fun j => P.quits (P.drift^[j] p)

/-- A drifting program does not end with one of its next moves. -/
def Lasts (p : σ) (k : Nat) : Prop := ∀ j < k, ∀ ending q, P.next (P.drift^[j] p) ≠ .ended ending q

variable {P}

lemma resigns_succ (p : σ) (k : Nat) :
    P.resigns p (k + 1) = (P.resigns p k || P.quits (P.drift^[k] p)) := by
  simp [resigns, List.range_succ]

end Program

/-- The configuration of a program that has been told to stop. -/
def Stage.stopped? : Stage σ → Option σ
  | .executing p w => if w.stopping then some p else none
  | _ => none

/-- The way a search has ended. -/
def Stage.exit? : Stage σ → Option Exit
  | .ended e => some e
  | _ => none

lemma Stage.eq_ended_of_exit? {stage : Stage σ} {e : Exit} (h : stage.exit? = some e) :
    stage = .ended e := by
  cases stage <;> simp_all [Stage.exit?]

/-! ## Reports -/

/-- Listeners that are related react alike, and a report makes no difference to them. -/
structure Audience.Ignores (A : Audience L) (R : L → L → Prop) : Prop where
  refl : ∀ l, R l l
  report : ∀ {l l'} r, R l l' → R l (A.report l' r)
  hear : ∀ {l l'} view n, R l l' →
    R (A.hear l view n).1 (A.hear l' view n).1 ∧ (A.hear l view n).2 = (A.hear l' view n).2

/-- What is written down beside does not matter to an audience that ignores reports. -/
lemma Audience.Ignores.recorded {A : Audience L} {R : L → L → Prop} (h : A.Ignores R) :
    A.recorded.Ignores fun l l' => R l.1 l'.1 ∧ l.2 = l'.2 where
  refl l := ⟨h.refl l.1, rfl⟩
  report r hl := ⟨h.report r hl.1, hl.2⟩
  hear view n hl := by
    obtain ⟨hR, hr⟩ := h.hear view n hl.1
    exact ⟨⟨hR, by simp [Audience.recorded, hl.2]⟩, hr⟩

namespace Writer

/-- What is saved, and the reaction to it, depends on the files alone. -/
lemma save_congr {e e' : Surroundings} (h : e.files = e'.files) (path : Path) (content : String) :
    (save e path content).1.files = (save e' path content).1.files ∧
      (save e path content).2 = (save e' path content).2 := by
  unfold save
  rw [h]
  split
  · exact ⟨h, rfl⟩
  · split
    · exact ⟨rfl, rfl⟩
    · split
      · exact ⟨rfl, rfl⟩
      · split <;> exact ⟨rfl, rfl⟩

variable {P : Type} [LabelProvider P]

/-- A writer does the same with the same files. -/
lemma hear_congr {e e' : Surroundings} (h : e.files = e'.files) (w : Writer P) (view : View)
    (n : Notice) :
    (w.hear e view n).1 = (w.hear e' view n).1 ∧
      (w.hear e view n).2.1.files = (w.hear e' view n).2.1.files ∧
      (w.hear e view n).2.2 = (w.hear e' view n).2.2 := by
  have journal : ∀ name, (w.writeJournal e name).1 = (w.writeJournal e' name).1 ∧
      (w.writeJournal e name).2.1.files = (w.writeJournal e' name).2.1.files ∧
      (w.writeJournal e name).2.2 = (w.writeJournal e' name).2.2 := by
    intro name
    unfold writeJournal
    split
    · exact ⟨rfl, h, rfl⟩
    · exact ⟨rfl, save_congr h _ _⟩
  have legend : ∀ {e e' : Surroundings} (w : Writer P) name, e.files = e'.files →
      (w.writeLegend e name).1.files = (w.writeLegend e' name).1.files ∧
        (w.writeLegend e name).2 = (w.writeLegend e' name).2 := by
    intro e e' w name h
    unfold writeLegend
    split
    · exact save_congr h _ _
    · exact ⟨h, rfl⟩
  cases n with
  | constraintHit => exact journal _
  | finished =>
    obtain ⟨hw, hfiles, hr⟩ := journal view.name
    obtain ⟨hfiles', hr'⟩ := legend (w.writeJournal e' view.name).1 view.name hfiles
    simp only [hear, hr, hw]
    split
    · exact ⟨rfl, hfiles, rfl⟩
    · exact ⟨rfl, hfiles', by rw [hr']⟩
  | advanced =>
    simp only [hear]
    split
    · split <;> exact ⟨rfl, h, rfl⟩
    · exact ⟨rfl, h, rfl⟩
  | executed i next =>
    simp only [hear]
    split <;> exact ⟨rfl, h, rfl⟩
  | started | executing | backtracked | restored => exact ⟨rfl, h, rfl⟩

end Writer

namespace Listeners

variable {P : Type} [LabelProvider P]

/-- Listeners do the same with the same files. -/
lemma hearAll_congr (view : View) (n : Notice) : ∀ (ls : List (Listener P)) {e e' : Surroundings},
    e.files = e'.files →
      (hearAll view n ls e).1 = (hearAll view n ls e').1 ∧
        (hearAll view n ls e).2.1.files = (hearAll view n ls e').2.1.files ∧
        (hearAll view n ls e).2.2 = (hearAll view n ls e').2.2
  | [], _, _, h => ⟨rfl, h, rfl⟩
  | l :: ls, e, e', h => by
    have hone : (hearOne l e view n).1 = (hearOne l e' view n).1 ∧
        (hearOne l e view n).2.1.files = (hearOne l e' view n).2.1.files ∧
        (hearOne l e view n).2.2 = (hearOne l e' view n).2.2 := by
      cases l with
      | writer w =>
        obtain ⟨hw, hfiles, hr⟩ := w.hear_congr h view n
        exact ⟨congrArg Listener.writer hw, hfiles, hr⟩
      | recorder r => exact ⟨rfl, h, rfl⟩
    obtain ⟨hl, hfiles, hr⟩ := hone
    obtain ⟨hls, hfiles', hr'⟩ := hearAll_congr view n ls hfiles
    simp only [hearAll, hl, hr]
    split
    · exact ⟨rfl, hfiles, rfl⟩
    · exact ⟨by rw [hls], hfiles', by rw [hr']⟩

/-- The listeners of a run take no notice of reports: these go to the log, which no listener
reads. -/
theorem ignores_reports : (audience : Audience (Listeners P)).Ignores fun l l' =>
    l.members = l'.members ∧ l.surroundings.files = l'.surroundings.files where
  refl _ := ⟨rfl, rfl⟩
  report _ h := h
  hear {l l'} view n h := by
    obtain ⟨hmembers, hfiles⟩ := h
    obtain ⟨hls, hfiles, hr⟩ := hearAll_congr view n l.members hfiles
    simp only [audience, ← hmembers]
    exact ⟨⟨hls, hfiles⟩, hr⟩

end Listeners

namespace Search

/-- The search with other listeners. -/
def hosting (s : Search L κ) (l : L) : Search L κ := { s with listeners := l }

@[simp] lemma hosting_outside (s : Search L κ) (l : L) : (s.hosting l).outside = s.outside := rfl
@[simp] lemma hosting_path (s : Search L κ) (l : L) : (s.hosting l).path = s.path := rfl

/-- An operation does the same to two searches that differ in related listeners only. -/
def Respects {α : Type} (R : L → L → Prop) (op : Search L κ → Search L κ × α) : Prop :=
  ∀ s l, R s.listeners l → ∃ l', R (op s).1.listeners l' ∧
    op (s.hosting l) = ((op s).1.hosting l', (op s).2)

variable {A : Audience L} {R : L → L → Prop}

/-- Related listeners are told the same, and answer the same. -/
lemma respects_notify (hA : A.Ignores R) (scene : Scene) (top : Option FrameId) (n : Notice) :
    Respects (κ := κ) R (notify A · scene top n) := by
  intro s l hR
  obtain ⟨hR', hr⟩ := hA.hear (s.view scene top) n hR
  refine ⟨_, hR', ?_⟩
  have hview : (s.hosting l).view scene top = s.view scene top := rfl
  have hlisteners : (s.hosting l).listeners = l := rfl
  simp only [notify, hview, hlisteners, hr]
  rfl

/-- Reports that are passed on leave the listeners related to what they were. -/
lemma related_of_reported {s t : Search L κ} (hA : A.Ignores R) (h : Exploration.Reported A s t) :
    ∃ l, R s.listeners l ∧ t = s.hosting l := by
  induction h with
  | refl => exact ⟨s.listeners, hA.refl _, rfl⟩
  | report _ r ih =>
    obtain ⟨l, hR, rfl⟩ := ih
    exact ⟨A.report l r, hA.report r hR, rfl⟩

lemma back_hosting (s : Search L κ) (l : L) (rest : List PathEntry) :
    (s.hosting l).back rest = (s.back rest).hosting l := rfl

/-- A boundary is left. -/
lemma backtrackFrom_cons (s : Search L κ) (e : PathEntry) (rest : List PathEntry) :
    s.backtrackFrom A (e :: rest) =
      match (s.back rest).notify A s.outside none .backtracked with
      | (t, some f) => (t, .failed f)
      | (t, none) =>
        if t.terminated then (t, .done)
        else
          match rest with
          | e' :: below =>
            if e'.hasMore then ({ t with path := e'.nextChoice :: below }, .resume)
            else t.backtrackFrom A rest
          | [] => (t, .done) := rfl

/-- With related listeners the search goes back over the same boundaries. -/
lemma respects_backtrackFrom (hA : A.Ignores R) (path : List PathEntry) :
    Respects (κ := κ) R (backtrackFrom A · path) := by
  induction path with
  | nil => exact fun s l hR => ⟨l, hR, rfl⟩
  | cons e rest ih =>
    intro s l hR
    obtain ⟨l', hR', hn'⟩ := respects_notify hA s.outside none .backtracked (s.back rest) l hR
    simp only at hn' hR'
    simp only [backtrackFrom_cons, back_hosting, hosting_outside, hn']
    cases hn : (s.back rest).notify A s.outside none .backtracked with
    | mk u f =>
      rw [hn] at hR'
      cases f with
      | some f => exact ⟨l', hR', rfl⟩
      | none =>
        by_cases hterm : u.terminated = true
        · have hterm' : (u.hosting l').terminated = true := hterm
          simp only [if_pos hterm, if_pos hterm']
          exact ⟨l', hR', rfl⟩
        · have hterm' : ¬(u.hosting l').terminated = true := hterm
          simp only [if_neg hterm, if_neg hterm']
          cases rest with
          | nil => exact ⟨l', hR', rfl⟩
          | cons e' below =>
            by_cases hm : e'.hasMore = true
            · simp only [if_pos hm]
              exact ⟨l', hR', rfl⟩
            · simp only [if_neg hm]
              exact ih u l' hR'

end Search

namespace Exploration

open Search

variable {P : Program σ κ} {A : Audience L} {R : L → L → Prop}

/-- With related listeners the search comes to the same end. -/
lemma respects_finish (hA : A.Ignores R) :
    Respects (κ := κ) R fun s => (finish A s : _ × Stage σ) := by
  intro s l hR
  obtain ⟨l', hR', hn'⟩ := respects_notify hA s.outside none .finished s l hR
  simp only at hn' hR'
  simp only [finish, hosting_outside, hn']
  cases hn : s.notify A s.outside none .finished with
  | mk u f =>
    rw [hn] at hR'
    cases f <;> exact ⟨l', hR', rfl⟩

/-- With related listeners the search goes on alike after a path. -/
lemma respects_afterPath (hA : A.Ignores R) :
    Respects (κ := κ) R fun s => (afterPath A s : _ × Stage σ) := by
  intro s l hR
  have hcount : ({ s.hosting l with paths := (s.hosting l).paths + 1 } : Search L κ) =
      ({ s with paths := s.paths + 1 } : Search L κ).hosting l := rfl
  simp only [afterPath, hcount]
  by_cases hterm : s.terminated = true
  · have hterm' : (s.hosting l).terminated = true := hterm
    simp only [if_pos hterm, if_pos hterm']
    exact respects_finish hA { s with paths := s.paths + 1 } l hR
  · have hterm' : ¬(s.hosting l).terminated = true := hterm
    simp only [if_neg hterm, if_neg hterm']
    obtain ⟨l', hR', hb'⟩ := respects_backtrackFrom hA s.path { s with paths := s.paths + 1 } l hR
    simp only at hb' hR'
    simp only [backtrack, hosting_path, hb']
    cases hb : ({ s with paths := s.paths + 1 } : Search L κ).backtrackFrom A s.path with
    | mk u r =>
      rw [hb] at hR'
      cases r with
      | failed f => exact ⟨l', hR', rfl⟩
      | done => exact respects_finish hA u l' hR'
      | resume => exact ⟨l', hR', rfl⟩

/-! ## The end of a stopped program -/

variable (A) in
/-- What becomes of a stopped path when the program lets the signal through. -/
def letThrough (s : Search L κ) (w : Walk) : Search L κ × Stage σ :=
  match w.failure with
  | some f => (s, .ended (.failed f))
  | none => afterPath A s

/-- With related listeners the signal is let through alike. -/
lemma respects_letThrough (hA : A.Ignores R) (w : Walk) :
    Respects (κ := κ) R fun s => (letThrough A s w : _ × Stage σ) := by
  intro s l hR
  simp only [letThrough]
  cases w.failure with
  | some f => exact ⟨l, hR, rfl⟩
  | none => exact respects_afterPath hA s l hR

/-- Going back discovers nothing. -/
lemma backtrackFrom_seen (path : List PathEntry) (s : Search L κ) :
    (s.backtrackFrom A path).1.seen = s.seen := by
  induction path generalizing s with
  | nil => rfl
  | cons e rest ih =>
    rw [backtrackFrom_cons]
    have hseen : ((s.back rest).notify A s.outside none .backtracked).1.seen = s.seen := rfl
    split
    · rename_i hn
      rw [hn] at hseen
      exact hseen
    · rename_i hn
      rw [hn] at hseen
      split
      · exact hseen
      · split
        · split
          · exact hseen
          · exact (ih _).trans hseen
        · exact hseen

/-- The last notice is all that is delivered at the end, and it discovers nothing. -/
lemma finish_log (s : Search (L × Log) κ) :
    (finish A.recorded s : _ × Stage σ).1.seen = s.seen ∧
      (finish A.recorded s : _ × Stage σ).1.listeners.2 =
        ⟨s.view s.outside none, .finished⟩ :: s.listeners.2 := by
  unfold finish
  cases hn : s.notify A.recorded s.outside none .finished with
  | mk t f =>
    obtain rfl : t = s.told A.recorded s.outside none .finished := eq_told _ hn
    cases f <;> exact ⟨rfl, rfl⟩

/-- When the signal is let through, no state is discovered, and nothing but retreats and the last
notice is delivered. -/
lemma letThrough_log (s : Search (L × Log) κ) (w : Walk) :
    (letThrough A.recorded s w : _ × Stage σ).1.seen = s.seen ∧
      ∃ new, (letThrough A.recorded s w : _ × Stage σ).1.listeners.2 = new ++ s.listeners.2 ∧
        ∀ d ∈ new, d.notice = .backtracked ∨ d.notice = .finished := by
  unfold letThrough
  cases w.failure with
  | some f => exact ⟨rfl, [], rfl, by simp⟩
  | none =>
    simp only [afterPath]
    split
    · obtain ⟨hseen, hlog⟩ := finish_log (σ := σ) (A := A) { s with paths := s.paths + 1 }
      exact ⟨hseen, [_], hlog, by simp⟩
    · cases hb : ({ s with paths := s.paths + 1 } : Search (L × Log) κ).backtrack A.recorded with
      | mk t r =>
        obtain ⟨new, hnew, hlog, -⟩ := backtrackFrom_said hb
        have hseen : t.seen = s.seen := by
          have h := backtrackFrom_seen (A := A.recorded) s.path
            ({ s with paths := s.paths + 1 } : Search (L × Log) κ)
          simp only [backtrack] at hb
          rwa [hb] at h
        cases r with
        | failed f => exact ⟨hseen, new, hlog, fun d hd => .inl (hnew d hd)⟩
        | resume => exact ⟨hseen, new, hlog, fun d hd => .inl (hnew d hd)⟩
        | done =>
          obtain ⟨hseen', hlog'⟩ := finish_log (σ := σ) (A := A) t
          refine ⟨hseen'.trans hseen, _ :: new, by rw [hlog', hlog]; rfl, ?_⟩
          exact List.forall_mem_cons.mpr ⟨.inr rfl, fun d hd => .inl (hnew d hd)⟩

variable [DecidableEq κ]

/-- A program that lets the signal through ends with it. -/
lemma onEnd_stopped {w : Walk} (hw : w.stopping = true) (s : Search L κ) (q : σ) :
    onEnd P A s q w .stopped = letThrough A s w := by
  cases hf : w.failure <;> simp [onEnd, letThrough, hw, hf]

/-- However a stopped program ends, the path is left as if it had let the signal through, once an
exception has been reported. -/
lemma onEnd_of_stopping {w : Walk} (hw : w.stopping = true) (s : Search L κ) (q : σ)
    {ending : Ending} (hi : ∀ type message, ending ≠ .interrupted type message) :
    ∃ t, Reported A s t ∧ ((∀ type message, ending ≠ .raised type message) → t = s) ∧
      onEnd P A s q w ending = letThrough A t w := by
  have key : ∀ t, endPath P A t q w ending = letThrough A t w := by
    intro t
    rw [endPath, letThrough]
    cases w.failure with
    | some f => rfl
    | none => simp [hw]
  cases ending with
  | interrupted type message => exact absurd rfl (hi type message)
  | raised type message => exact ⟨_, .report (.refl s) _, fun h => absurd rfl (h _ _), key _⟩
  | normal | exit | stopped => exact ⟨s, .refl s, fun _ => rfl, key s⟩

/-- A stopped program makes a move, and the search lets it drift. -/
lemma step_stopping {w : Walk} (hw : w.stopping = true) (s : Search L κ) {p : σ}
    (printed : Array String) (hp : ∀ ending q, P.next p ≠ .ended ending q) :
    ∃ printed', step P A ⟨s, .executing p w, printed⟩ =
      ⟨{ s with terminated := s.terminated || P.quits p }, .executing (P.drift p) w, printed'⟩ := by
  simp only [step]
  cases hn : P.next p with
  | ended ending q => exact absurd hn (hp ending q)
  | internal q => exact ⟨printed, by simp [Program.quits, Program.drift, hn]⟩
  | print text q => exact ⟨printed.push text, by simp [Program.quits, Program.drift, hn]⟩
  | effect e q => exact ⟨printed, by simp [Program.quits, Program.drift, hn, hw]⟩
  | terminate q => exact ⟨printed, by simp [Program.quits, Program.drift, hn]⟩
  | instruction i q =>
    exact ⟨printed, by simp [Program.quits, Program.drift, hn, onInstruction, hw]⟩
  | choice n q =>
    refine ⟨printed, ?_⟩
    by_cases hlt : n < 1
    · simp [Program.quits, Program.drift, hn, onChoice, hlt]
    · simp [Program.quits, Program.drift, hn, onChoice, hlt, hw]

/-- As long as a stopped program has not ended, the search lets it drift: nothing is delivered, the
states, the path and the choices stay as they are.

**Proof sketch.** Induction on the number of moves; each of them is `step_stopping`. -/
theorem after_stopping {w : Walk} (hw : w.stopping = true) (s : Search L κ) (p : σ)
    (printed : Array String) {k : Nat} (hk : P.Lasts p k) :
    ∃ printed', after P A k ⟨s, .executing p w, printed⟩ =
      ⟨{ s with terminated := s.terminated || P.resigns p k }, .executing (P.drift^[k] p) w,
        printed'⟩ := by
  induction k with
  | zero => exact ⟨printed, by simp [Program.resigns]⟩
  | succ k ih =>
    obtain ⟨printed', hafter⟩ := ih fun j hj => hk j (Nat.lt_succ_of_lt hj)
    obtain ⟨printed'', hstep⟩ := step_stopping (A := A) hw
      { s with terminated := s.terminated || P.resigns p k } printed' (hk k (Nat.lt_succ_self k))
    refine ⟨printed'', ?_⟩
    rw [after_succ, hafter, hstep, Program.resigns_succ, Function.iterate_succ_apply',
      Bool.or_assoc]

/-! ## Runs -/

section Runs

variable {name : String} {depthLimit maxStates : Option Int} {outside : Scene} {l : L} {n k : Nat}
  {s : Search (L × Log) κ} {p : σ} {w : Walk} {printed : Array String}

/-- A stopped path stays stopped, in every run. Whatever the program does after it has caught the
signal, as long as it does not end: nothing is delivered, no state is seen and the path stays as it
is, no choice is used up, and every choice is answered with the signal again (`Program.drift`); all
that the program can bring about is the end of the whole search, if it asks for that. When it ends,
in whatever way a report can be made of, no state is discovered and no boundary announced, and the
search is where it would be had the program let the signal through, but for the report.

**Proof sketch.** The moves up to the end are `after_stopping`. At the end the search looks neither
at the way the program ended nor at what there is to repeat, `onEnd_of_stopping`; going back makes
no use of the reports, `respects_letThrough`. -/
theorem stopped_path_over
    (hx : after P A.recorded n (fresh name depthLimit maxStates outside l) =
      ⟨s, .executing p w, printed⟩)
    (hw : w.stopping = true) (hk : P.Lasts p k) :
    let s' := { s with terminated := s.terminated || P.resigns p k }
    (∃ printed', after P A.recorded (n + k) (fresh name depthLimit maxStates outside l) =
      ⟨s', .executing (P.drift^[k] p) w, printed'⟩) ∧
    ∀ ending q, P.next (P.drift^[k] p) = .ended ending q →
      (∀ type message, ending ≠ .interrupted type message) →
      let y := after P A.recorded (n + k + 1) (fresh name depthLimit maxStates outside l)
      let z := onEnd P A.recorded s' q w .stopped
      y.search.seen = s.seen ∧
      (∃ new, y.search.listeners.2 = new ++ s.listeners.2 ∧
        ∀ d ∈ new, d.notice = .backtracked ∨ d.notice = .finished) ∧
      (∃ t, Reported A.recorded s' t ∧ ((∀ type message, ending ≠ .raised type message) → t = s') ∧
        (y.search, y.stage) = onEnd P A.recorded t q w .stopped) ∧
      ∀ R, A.Ignores R → ∃ l', R z.1.listeners.1 l' ∧
        y.search = z.1.hosting (l', z.1.listeners.2) ∧ y.stage = z.2 := by
  intro s'
  have hdrift : ∃ printed', after P A.recorded (n + k) (fresh name depthLimit maxStates outside l) =
      ⟨s', .executing (P.drift^[k] p) w, printed'⟩ := by
    rw [Nat.add_comm, after_add, hx]
    exact after_stopping hw s p printed hk
  refine ⟨hdrift, fun ending q hend hi => ?_⟩
  obtain ⟨printed', hdrift⟩ := hdrift
  obtain ⟨t, hrep, hsame, hthrough⟩ := onEnd_of_stopping (P := P) (A := A.recorded) hw s' q hi
  rw [after_succ, hdrift]
  simp only [step, hend, hthrough, onEnd_stopped hw]
  obtain ⟨r, ht⟩ := hrep.eq_recorded
  obtain ⟨hseen, new, hlog, hnew⟩ := letThrough_log (σ := σ) (A := A) t w
  refine ⟨hseen.trans (by rw [ht]), ⟨new, hlog.trans (by rw [ht]), hnew⟩, ⟨t, hrep, hsame, rfl⟩,
    fun R hA => ?_⟩
  -- the report is nothing to the listeners, so it makes no difference from here on
  obtain ⟨l₁, hR, rfl⟩ := related_of_reported hA.recorded hrep
  obtain ⟨⟨l', log⟩, hR', heq⟩ := respects_letThrough (σ := σ) hA.recorded w s' l₁ hR
  obtain ⟨hR', rfl⟩ : R _ l' ∧ _ = log := hR'
  exact ⟨l', hR', (Prod.ext_iff.mp heq).1, (Prod.ext_iff.mp heq).2⟩

omit [DecidableEq κ] in
lemma exists_of_stopped? {x : Exploration σ L κ} {p : σ} (h : x.stage.stopped? = some p) :
    ∃ s w printed, x = ⟨s, .executing p w, printed⟩ ∧ w.stopping = true := by
  obtain ⟨s, stage, printed⟩ := x
  cases stage with
  | executing q w =>
    by_cases hw : w.stopping = true
    · obtain rfl : q = p := by simpa [Stage.stopped?, hw] using h
      exact ⟨s, w, printed, rfl, hw⟩
    · simp [Stage.stopped?, hw] at h
  | _ => simp [Stage.stopped?] at h

/-- A program that does not give in: it runs an instruction when it has caught the signal to stop,
chooses again, and ends with an exception when it has caught the next one. The configuration is the
number of these things it has done. -/
def stubborn : Program Nat Nat where
  start _ := 0
  next c :=
    match c with
    | 1 => .instruction default 1
    | 3 => .ended (.raised "ValueError" "no") 3
    | _ => .choice 2 c
  reply c _ := c + 1
  scene _ := ⟨.empty, .empty, #[]⟩
  fingerprint _ c _ _ := .ok c

/-- The search of the stubborn program with a limit on the depth, which stops it at its first
choice. -/
def stubbornStopped : Exploration Nat (Unit × Log) Nat :=
  after stubborn Audience.mute.recorded 3
    (fresh "stubborn" (some 1) none ⟨.empty, .empty, #[]⟩ ())

/-- The stubborn program is stopped at its first choice; an instruction, a choice and an exception
later the search has gone back, as if the program had let the signal through. -/
theorem stopped_path_over_stubborn :
    ∃ (s : Search (Unit × Log) Nat) (w : Walk) (printed : Array String),
      stubbornStopped = ⟨s, .executing 1 w, printed⟩ ∧ w.stopping = true ∧ stubborn.Lasts 1 2 ∧
      ∃ new, (after stubborn Audience.mute.recorded 6 (fresh "stubborn" (some 1) none
          ⟨.empty, .empty, #[]⟩ ())).search.listeners.2 = new ++ s.listeners.2 ∧
        ∀ d ∈ new, d.notice = .backtracked ∨ d.notice = .finished := by
  have hstage : stubbornStopped.stage.stopped? = some 1 := by decide +kernel
  have hlasts : stubborn.Lasts 1 2 := by
    intro j hj ending q
    obtain rfl | rfl : j = 0 ∨ j = 1 := by omega
    · simp [stubborn]
    · simp [stubborn, Program.drift]
  obtain ⟨s, w, printed, hx, hw⟩ := exists_of_stopped? hstage
  obtain ⟨-, hend⟩ := stopped_path_over hx hw hlasts
  obtain ⟨-, hnew, -⟩ := hend (.raised "ValueError" "no") 3 rfl (by simp)
  exact ⟨s, w, printed, hx, hw, hlasts, hnew⟩

/-! ## An exception of which no report can be made -/

/-- The program that asks for a truth value, catches whatever comes of it, and raises an exception
that cannot be written: `try: get_boolean()` and `except BaseException: raise ValueError(10 **
5000)`. -/
def blurts : CodeProgram :=
  .catching "blurts" 88
    [⟨60, "PUSH_NULL", .absent, .pushNull⟩,
     ⟨62, "LOAD_NAME", .text "ValueError", .loadName "ValueError"⟩,
     ⟨64, "LOAD_CONST", .constant (.int 10), .loadConstant (.int 10)⟩,
     ⟨66, "LOAD_CONST", .constant (.int 5000), .loadConstant (.int 5000)⟩,
     ⟨68, "BINARY_OP", .text "**", .binary .pow false⟩,
     ⟨72, "PRECALL", .number 1, .idle⟩,
     ⟨76, "CALL", .number 1, .call 1⟩,
     ⟨86, "RAISE_VARARGS", .number 1, .raise 1⟩]

/-- The search of `blurts` with a limit on the depth, which stops it at its choice. -/
def blurtsAfter (n : Nat) : Exploration Process (Unit × Log) (List Frozen.Mark) :=
  after blurts.program Audience.mute.recorded n
    (fresh "blurts" (some 1) none ⟨.empty, .empty, #[]⟩ ())

/-- The exception that is about to leave a process. -/
def leaving? (p : Process) : Option Value :=
  match p.tasks, p.mode with
  | [], .unwind e => some e
  | _, _ => none

/-- A stopped path need not be left: an exception that cannot be written leaves `blurts`, which has
been told to stop, and with its report the whole run fails. Neither has the search gone back then,
nor has it come to its end. -/
theorem stopped_path_not_left :
    ∃ (p : Process) (e : Value), (blurtsAfter 68).stage.stopped? = some p ∧ leaving? p = some e ∧
      p.heap.isInstance e (.ofType "Exception") = true ∧
      ∀ n, 70 ≤ n →
        (blurtsAfter n).stage = .ended (.interrupted ⟨"ValueError", false⟩ Fault.integerTooLong.message) ∧
        ∀ d ∈ (blurtsAfter n).search.listeners.2, d.notice ≠ .backtracked ∧ d.notice ≠ .finished := by
  have hleaving : ((blurtsAfter 68).stage.stopped?.bind fun p => (leaving? p).map
      fun e => p.heap.isInstance e (.ofType "Exception")) = some true := by decide +kernel
  have hexit : (blurtsAfter 70).stage.exit? =
      some (.interrupted ⟨"ValueError", false⟩ Fault.integerTooLong.message) := by decide +kernel
  have hlog : ((blurtsAfter 70).search.listeners.2.all fun d =>
      EventKind.ofNotice? d.notice ≠ some .backtracked &&
        EventKind.ofNotice? d.notice ≠ some .finished) = true := by decide +kernel
  obtain ⟨p, hp, hleaving⟩ := Option.bind_eq_some_iff.mp hleaving
  obtain ⟨e, he, hexception⟩ := Option.map_eq_some_iff.mp hleaving
  have hstage := Stage.eq_ended_of_exit? hexit
  refine ⟨p, e, hp, he, hexception, fun n hn => ?_⟩
  have hafter : blurtsAfter n = blurtsAfter 70 := after_of_over hstage hn
  rw [hafter]
  refine ⟨hstage, fun d hd => ?_⟩
  have h := List.all_eq_true.mp hlog d hd
  constructor <;> rintro heq <;> simp [heq, EventKind.ofNotice?] at h

end Runs

end Exploration

end StateAtlas
