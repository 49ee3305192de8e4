import Mathlib.Data.List.Forall2
import StateAtlas.Proofs.File.Blank
import StateAtlas.Proofs.Label.Arrangement
import StateAtlas.Proofs.Label.Growth
import StateAtlas.Proofs.Search.Concurrence

set_option autoImplicit false

/-!
# Writers that ask for the same

What a label writer asks of a search does not depend on the order of its providers, and not on those
that do not watch instructions: a boundary is wanted if any provider wants one, and each of them is
what it has made of the log by itself. The texts of the files may differ, but where a file can be
written depends on the places of the others alone.

## Main definitions

* `StateAtlas.LabelProvider.Steady` — providers watch instructions always or never, and those that
  do not never fail.
* `StateAtlas.Writer.Like` — two writers whose providers that watch instructions are the same, in
  some order.

## Main results

* `StateAtlas.Writer.Like.hear` — writers that are alike concur, and stay alike.
* `StateAtlas.Listeners.concurs_audience` — so do listeners whose writers are alike.
-/

namespace StateAtlas

variable {P : Type}

/-! ## What comes of some answers -/

namespace Tally

/-- The calls fail if one of the answers is a failure. -/
lemma failure?_fold (os : List Opinion) : ∀ t,
    failure? (fold os t).2 = none ↔ ∀ f, .error f ∉ os := by
  induction os with
  | nil => simp [fold, failure?]
  | cons o os ih =>
    intro t
    cases o with
    | error f =>
      exact ⟨fun h => by simp [fold, failure?] at h, fun h => absurd List.mem_cons_self (h f)⟩
    | ok answer => simp [fold, failure?_map, ih]

/-- Something is wanted if one of the answers is a set of labels. -/
lemma wanted_of_fold {os : List Opinion} : ∀ {t : Tally} {wanted : Bool},
    (fold os t).2 = .ok wanted → (wanted = true ↔ ∃ labels, .ok (some labels) ∈ os) := by
  induction os with
  | nil =>
    intro t wanted h
    obtain rfl := Except.ok.inj h
    simp
  | cons o os ih =>
    intro t wanted h
    cases o with
    | error f => simp [fold] at h
    | ok answer =>
      cases hrest : (fold os (t.addAll (answer.getD []))).2 with
      | error f => simp [fold, hrest, Except.map] at h
      | ok rest =>
        obtain rfl : (answer.isSome || rest) = wanted := by simpa [fold, hrest, Except.map] using h
        cases answer <;> simp [ih hrest]

/-- What the same answers come to does not depend on their order, but for the labels. -/
lemma fold_concurs {os os' : List Opinion} (h : ∀ o, o ∈ os ↔ o ∈ os') (t t' : Tally) :
    (failure? (fold os' t').2 = none ↔ failure? (fold os t).2 = none) ∧
      ∀ {wanted wanted'}, (fold os t).2 = .ok wanted → (fold os' t').2 = .ok wanted' →
        wanted' = wanted := by
  refine ⟨?_, fun hw hw' => ?_⟩
  · rw [failure?_fold, failure?_fold]
    simp only [h]
  · rw [Bool.eq_iff_iff, wanted_of_fold hw, wanted_of_fold hw']
    simp only [h]

end Tally

/-! ## Journals without states -/

namespace Journal

/-- What a journal keeps beside the labelled states. -/
def outline : Journal → Journal
  | .text _ => .text #[]
  | .graph cursor _ edges => .graph cursor #[] edges
  | .plain _ written => .plain #[] written

/-- The name under which a journal is written is kept. -/
def inscribe (name : String) : Journal → Journal
  | .plain states written => .plain states (written.push name)
  | j => j

variable {j j' : Journal}

lemma outline_label (j : Journal) (s : LabeledState) : (j.label s).outline = j.outline := by
  cases j <;> simp only [label] <;> (try split) <;> rfl

lemma outline_advance (j : Journal) (id : Int) :
    (j.advance id).outline = j.outline.advance id := by
  cases j <;> rfl

lemma outline_move (j : Journal) (id : Int) : (j.move id).outline = j.outline.move id := by
  cases j <;> rfl

lemma outline_inscribe (j : Journal) (name : String) :
    (j.inscribe name).outline = j.outline.inscribe name := by
  cases j <;> rfl

/-- What becomes of a journal at a delivery, but for the labelled states. -/
def follow (d : Delivery) (j : Journal) : Journal :=
  match d.notice with
  | .advanced => j.advance d.view.stateId
  | .backtracked | .restored => j.move d.view.stateId
  | .constraintHit => j.inscribe (d.view.name ++ "_" ++ d.view.constraint.getD "None")
  | .finished => j.inscribe d.view.name
  | _ => j

end Journal

/-! ## Writers -/

namespace LabelProvider

/-- Providers watch instructions always or never, and those that do not never fail when they are
asked for the labels of a state. -/
structure Steady (P : Type) [LabelProvider P] : Prop where
  handles : ∀ d (p : P), handlesTransitions (inform d p) = handlesTransitions p
  answers : ∀ view (p : P), handlesTransitions p = false →
    ∃ answer, (stateLabels view p).2 = .ok answer

end LabelProvider

namespace Writer

open LabelProvider

/-- Two writers keep the same journal beside the labelled states, write it to the same place, and
have the same providers that watch instructions, in some order. -/
structure Like [LabelProvider P] (w w' : Writer P) : Prop where
  watchers : (w.providers.filter handlesTransitions).Perm
    (w'.providers.filter handlesTransitions)
  outline : w'.journal.outline = w.journal.outline
  outputDir : w'.outputDir = w.outputDir

/-- Where a file can be saved depends on the places of the others alone. -/
lemma save_blank {e e' : Surroundings} (h : e'.files.blank = e.files.blank) (path : Path)
    (content content' : String) :
    (save e' path content').1.files.blank = (save e path content).1.files.blank ∧
      (save e' path content').2 = (save e path content).2 := by
  have hrefusal : e'.files.refusal? = e.files.refusal? := by
    rw [← FileStore.refusal?_blank, h, FileStore.refusal?_blank]
  have hasked : e'.files.asked.blank = e.files.asked.blank := by
    rw [← FileStore.asked_blank, h, FileStore.asked_blank]
  unfold save
  split
  · exact ⟨h, rfl⟩
  · rw [hrefusal]
    cases e.files.refusal? with
    | some cause => exact ⟨hasked, rfl⟩
    | none =>
      have hmake : (e'.files.asked.makeDirectories path.parent).map FileStore.blank =
          (e.files.asked.makeDirectories path.parent).map FileStore.blank := by
        rw [← FileStore.makeDirectories_blank, ← FileStore.makeDirectories_blank, hasked]
      cases hm : e.files.asked.makeDirectories path.parent with
      | error error =>
        cases hm' : e'.files.asked.makeDirectories path.parent with
        | error error' => exact ⟨hasked, rfl⟩
        | ok files' => simp [hm, hm', Except.map] at hmake
      | ok files =>
        cases hm' : e'.files.asked.makeDirectories path.parent with
        | error error' => simp [hm, hm', Except.map] at hmake
        | ok files' =>
          rw [hm, hm'] at hmake
          have hfiles : files'.blank = files.blank := Except.ok.inj hmake
          have hwrite : (files'.write path content').map FileStore.blank =
              (files.write path content).map FileStore.blank := by
            rw [← FileStore.write_blank, ← FileStore.write_blank, hfiles]
          cases hw : files.write path content with
          | error error =>
            cases hw' : files'.write path content' with
            | error error' =>
              simp only [hw, hw']
              exact ⟨hfiles, rfl⟩
            | ok written' => simp [hw, hw', Except.map] at hwrite
          | ok written =>
            cases hw' : files'.write path content' with
            | error error' => simp [hw, hw', Except.map] at hwrite
            | ok written' =>
              rw [hw, hw'] at hwrite
              simp only [hw, hw']
              exact ⟨Except.ok.inj hwrite, trivial⟩

variable {w w' : Writer P}

lemma writeJournal_inscribe (w : Writer P) (e : Surroundings) (name : String) :
    (w.writeJournal e name).1 = { w with journal := w.journal.inscribe name } := by
  obtain ⟨ps, t, j, dir⟩ := w
  cases j <;> rfl

/-- A journal is written with the same success by writers that keep the same beside the states. -/
lemma writeJournal_blank (ho : w'.journal.outline = w.journal.outline)
    (hd : w'.outputDir = w.outputDir) {e e' : Surroundings} (h : e'.files.blank = e.files.blank)
    (name : String) :
    (w'.writeJournal e' name).2.1.files.blank = (w.writeJournal e name).2.1.files.blank ∧
      (w'.writeJournal e' name).2.2 = (w.writeJournal e name).2.2 := by
  obtain ⟨ps, t, j, dir⟩ := w
  obtain ⟨ps', t', j', dir'⟩ := w'
  obtain rfl : dir' = dir := hd
  cases j <;> cases j' <;> simp only [Journal.outline, reduceCtorEq] at ho
  · rw [writeJournal_eq (by simp [Journal.suffix]), writeJournal_eq (by simp [Journal.suffix])]
    exact save_blank h _ _ _
  · rw [writeJournal_eq (by simp [Journal.suffix]), writeJournal_eq (by simp [Journal.suffix])]
    exact save_blank h _ _ _
  · exact ⟨h, rfl⟩

/-- So is a legend. -/
lemma writeLegend_blank (ho : w'.journal.outline = w.journal.outline)
    (hd : w'.outputDir = w.outputDir) {e e' : Surroundings} (h : e'.files.blank = e.files.blank)
    (name : String) :
    (w'.writeLegend e' name).1.files.blank = (w.writeLegend e name).1.files.blank ∧
      (w'.writeLegend e' name).2 = (w.writeLegend e name).2 := by
  obtain ⟨ps, t, j, dir⟩ := w
  obtain ⟨ps', t', j', dir'⟩ := w'
  obtain rfl : dir' = dir := hd
  cases j <;> cases j' <;> simp only [Journal.outline, reduceCtorEq] at ho
  · exact ⟨h, rfl⟩
  · exact save_blank h _ _ _
  · exact ⟨h, rfl⟩

variable [LabelProvider P]

/-- Whether a state can be labelled comes of the answers. -/
lemma labelState_snd (w : Writer P) (view : View) (id : Int) : (w.labelState view id).2 =
    Tally.failure? (Tally.fold (Tally.stateAnswers view w.providers) w.tally).2 := by
  rw [labelState_fold]
  cases hf : Tally.failure? (Tally.fold (Tally.stateAnswers view w.providers) w.tally).2 <;>
    simp [hf]

omit [LabelProvider P] in
lemma failure_stepReaction (r : Except Fault Bool) :
    (stepReaction r).failure = Tally.failure? r := by cases r <;> rfl

/-- One of the providers of a writer fails at a delivery. -/
def Raises (w : Writer P) (d : Delivery) : Prop := ∃ f, .error f ∈ w.answers d

/-- Nobody is asked anything when a journal is written. -/
lemma not_raises_of_written {d : Delivery}
    (h : d.notice = .constraintHit ∨ d.notice = .finished) : ¬w.Raises d := by
  rintro ⟨f, hf⟩
  rcases h with h | h <;> simp [answers, h, Opinion.made] at hf

/-- A writer fails if one of its providers does, unless its journal is written. -/
lemma failsAt_iff_raises {d : Delivery} (hlimit : d.notice ≠ .constraintHit)
    (hend : d.notice ≠ .finished) : w.FailsAt d ↔ w.Raises d := by
  obtain ⟨view, n⟩ := d
  have made : ∀ {os : List Opinion} {t : Tally}, Tally.failure? (Tally.fold os t).2 = none ↔
      ¬∃ f, .error f ∈ Opinion.made os := by
    intro os t
    rw [← Tally.fold_made, Tally.failure?_fold, not_exists]
  suffices key : (w.hear .empty view n).2.2.failure = none ↔ ¬w.Raises ⟨view, n⟩ by
    rw [FailsAt, ne_eq, key, not_not]
  cases n with
  | started =>
    simp only [hear, failure_reactionOf, labelState_snd]
    exact made
  | advanced =>
    by_cases hnew : view.isNew = true
    · simp only [hear_advanced hnew, failure_reactionOf, labelState_snd, Raises, answers, hnew]
      exact made
    · simp [hear, hnew, Reaction.none, Raises, answers, Opinion.made]
  | backtracked | restored => simp [hear, Reaction.none, Raises, answers, Opinion.made]
  | executing i =>
    simp only [hear, failure_reactionOf, Tally.prepare_snd _ _ _ .empty]
    exact made
  | executed i next =>
    rw [hear_executed, failure_stepReaction]
    exact made
  | constraintHit => exact absurd rfl hlimit
  | finished => exact absurd rfl hend

/-- The failure of a provider is one of the writer. -/
lemma failsAt_of_raises {d : Delivery} (h : w.Raises d) : w.FailsAt d := by
  by_cases hd : d.notice = .constraintHit ∨ d.notice = .finished
  · exact absurd h (not_raises_of_written hd)
  · rw [not_or] at hd
    exact (failsAt_iff_raises hd.1 hd.2).mpr h

/-- A writer none of whose providers fails attends a delivery, even if a file cannot be written. -/
lemma attends_of_not_raises {d : Delivery} (h : ¬w.Raises d) : w.Attends d (w.attend d) := by
  by_cases hd : d.notice = .constraintHit ∨ d.notice = .finished
  · obtain ⟨view, n⟩ := d
    rcases hd with rfl | rfl
    · exact .written _ (.inl rfl)
    · rw [w.attend_finished view]
      exact .written _ (.inr rfl)
  · rw [not_or] at hd
    exact attends_attend fun hf => h ((failsAt_iff_raises hd.1 hd.2).mp hf)

/-- A delivery at which no provider fails changes what a journal keeps beside the states in one
way. -/
lemma outline_attend {d : Delivery} (h : ¬w.Raises d) :
    (w.attend d).journal.outline = w.journal.outline.follow d := by
  by_cases hd : d.notice = .constraintHit ∨ d.notice = .finished
  · obtain ⟨view, n⟩ := d
    rcases hd with rfl | rfl
    · rw [attend, hear, writeJournal_inscribe]
      exact Journal.outline_inscribe _ _
    · rw [w.attend_finished view, writeJournal_inscribe]
      exact Journal.outline_inscribe _ _
  · rw [not_or] at hd
    have ha := attends_of_not_raises h
    generalize w.attend d = v at ha ⊢
    cases ha with
    | started => exact Journal.outline_label _ _
    | discovered => rw [Journal.outline_advance, Journal.outline_label]; rfl
    | revisited => exact Journal.outline_advance _ _
    | moved hn => rcases hn with rfl | rfl <;> exact Journal.outline_move _ _
    | executing | executed => rfl
    | written _ hn => exact absurd hn (not_or.mpr hd)

/-- Only a provider that watches instructions can fail when it is asked for the labels of a state. -/
lemma error_mem_stateAnswers (hP : Steady P) {view : View} {ps : List P} {f : Fault} :
    .error f ∈ Tally.stateAnswers view ps ↔
      ∃ p ∈ ps.filter handlesTransitions, (stateLabels view p).2 = .error f := by
  simp only [Tally.stateAnswers, List.mem_map, List.mem_filter]
  constructor
  · rintro ⟨p, hp, ho⟩
    refine ⟨p, ⟨hp, ?_⟩, ho⟩
    by_contra hh
    obtain ⟨answer, ha⟩ := hP.answers view p (by simpa using hh)
    simp [ha] at ho
  · rintro ⟨p, ⟨hp, -⟩, ho⟩
    exact ⟨p, hp, ho⟩

namespace Like

/-- Writers that are alike stay so at a delivery at which they do not fail. -/
lemma attend (hP : Steady P) (h : w.Like w') {d : Delivery} (hw : ¬w.FailsAt d)
    (hw' : ¬w'.FailsAt d) : (w.attend d).Like (w'.attend d) where
  watchers := by
    have handles : handlesTransitions ∘ inform d = (handlesTransitions : P → Bool) :=
      funext fun p => hP.handles d p
    rw [(attends_attend hw).providers, (attends_attend hw').providers, List.filter_map,
      List.filter_map, handles]
    exact h.watchers.map _
  outline := by
    rw [outline_attend fun hr => hw (failsAt_of_raises hr),
      outline_attend fun hr => hw' (failsAt_of_raises hr), h.outline]
  outputDir := by
    have hdir := (w.grows_hear .empty d.view d.notice).outputDir
    have hdir' := (w'.grows_hear .empty d.view d.notice).outputDir
    rw [← Writer.attend] at hdir hdir'
    rw [hdir, hdir', h.outputDir]

/-- Writers that are alike label a state with the same success. -/
lemma labelState (hP : Steady P) (h : w.Like w') (view : View) (id : Int) :
    (w'.labelState view id).2 = none ↔ (w.labelState view id).2 = none := by
  rw [labelState_snd, labelState_snd, Tally.failure?_fold, Tally.failure?_fold]
  simp only [error_mem_stateAnswers hP, h.watchers.mem_iff]

omit [LabelProvider P] in
/-- A failure is the same request whatever it says. -/
lemma concurs_reactionOf {f f' : Option Fault} (hf : f' = none ↔ f = none) :
    (reactionOf f).Concurs (reactionOf f') := by
  refine ⟨?_, ?_, ?_⟩ <;> cases f <;> cases f' <;>
    simp_all [reactionOf, Reaction.failing, Reaction.none]

omit [LabelProvider P] in
/-- Answers that differ in what a failure says have the same reaction, but for that. -/
lemma concurs_stepReaction {r r' : Except Fault Bool}
    (hf : Tally.failure? r' = none ↔ Tally.failure? r = none)
    (hwanted : ∀ {wanted wanted'}, r = .ok wanted → r' = .ok wanted' → wanted' = wanted) :
    (stepReaction r).Concurs (stepReaction r') := by
  cases r <;> cases r' <;> simp [Tally.failure?] at hf
  · exact @concurs_reactionOf (some _) (some _) (by simp)
  · rw [hwanted rfl rfl]
    exact .refl _

/-- Writers that are alike write files at the same places, and with the same success. -/
lemma hear_finished (h : w.Like w') {e e' : Surroundings}
    (he : e'.files.blank = e.files.blank) (view : View) :
    (w.hear e view .finished).2.2.Concurs (w'.hear e' view .finished).2.2 ∧
      (w'.hear e' view .finished).2.1.files.blank = (w.hear e view .finished).2.1.files.blank := by
  obtain ⟨hfiles, hr⟩ := writeJournal_blank h.outline h.outputDir he view.name
  simp only [Writer.hear, hr]
  split
  · exact ⟨.refl _, hfiles⟩
  · have ho : (w'.writeJournal e' view.name).1.journal.outline =
        (w.writeJournal e view.name).1.journal.outline := by
      rw [writeJournal_inscribe, writeJournal_inscribe, Journal.outline_inscribe,
        Journal.outline_inscribe, h.outline]
    have hd : (w'.writeJournal e' view.name).1.outputDir =
        (w.writeJournal e view.name).1.outputDir := by
      rw [writeJournal_inscribe, writeJournal_inscribe]
      exact h.outputDir
    obtain ⟨hfiles', hr'⟩ := writeLegend_blank ho hd hfiles view.name
    exact ⟨by rw [hr']; exact .refl _, hfiles'⟩

/-- Writers that are alike react to every notice in the same way, but for what a failure says.

**Proof sketch.** One case for each notice; in each of them the reaction is a function of the
providers that watch instructions, of what the journal keeps beside the states and of the places of
the files. -/
lemma hear_concurs (hP : Steady P) (h : w.Like w') {e e' : Surroundings}
    (he : e'.files.blank = e.files.blank) (view : View) (n : Notice) :
    (w.hear e view n).2.2.Concurs (w'.hear e' view n).2.2 ∧
      (w'.hear e' view n).2.1.files.blank = (w.hear e view n).2.1.files.blank := by
  cases n with
  | started =>
    have hclear : Like { w with tally := w.tally.clear } { w' with tally := w'.tally.clear } :=
      ⟨h.watchers, h.outline, h.outputDir⟩
    exact ⟨concurs_reactionOf (hclear.labelState hP view (-1)), he⟩
  | advanced =>
    by_cases hnew : view.isNew = true
    · rw [hear_advanced hnew, hear_advanced hnew]
      exact ⟨concurs_reactionOf (h.labelState hP view view.stateId), he⟩
    · simp only [Writer.hear, hnew]
      exact ⟨.refl _, he⟩
  | backtracked | restored => exact ⟨.refl _, he⟩
  | executing i =>
    refine ⟨concurs_reactionOf ?_, he⟩
    rw [Tally.prepare_snd _ _ _ .empty, Tally.prepare_snd _ _ _ .empty, Tally.failure?_fold,
      Tally.failure?_fold]
    simp only [Tally.noteAnswers, List.mem_map, h.watchers.mem_iff]
  | executed i next =>
    have hmem : ∀ o, o ∈ Tally.stepAnswers view.scene i next w.providers ↔
        o ∈ Tally.stepAnswers view.scene i next w'.providers := by
      intro o
      simp only [Tally.stepAnswers, List.mem_flatMap, h.watchers.mem_iff]
    obtain ⟨hf, hwanted⟩ := Tally.fold_concurs hmem w.tally.clear w'.tally.clear
    rw [hear_executed, hear_executed]
    exact ⟨concurs_stepReaction hf hwanted, he⟩
  | constraintHit =>
    obtain ⟨hfiles, hr⟩ := writeJournal_blank h.outline h.outputDir he
      (view.name ++ "_" ++ view.constraint.getD "None")
    exact ⟨by rw [Writer.hear, Writer.hear, hr]; exact .refl _, hfiles⟩
  | finished => exact h.hear_finished he view

/-- Writers that are alike react to every notice in the same way, but for what a failure says, and
stay alike unless they fail. -/
theorem hear (hP : Steady P) (h : w.Like w') {e e' : Surroundings}
    (he : e'.files.blank = e.files.blank) (view : View) (n : Notice) :
    (w.hear e view n).2.2.Concurs (w'.hear e' view n).2.2 ∧
      (w'.hear e' view n).2.1.files.blank = (w.hear e view n).2.1.files.blank ∧
      ((w.hear e view n).2.2.failure = none → (w.attend ⟨view, n⟩).Like (w'.attend ⟨view, n⟩)) := by
  obtain ⟨hc, hfiles⟩ := h.hear_concurs hP he view n
  refine ⟨hc, hfiles, fun hf => h.attend hP ?_ ?_⟩
  · rw [FailsAt, not_not, ← (w.hear_eq e view n).2]
    exact hf
  · rw [FailsAt, not_not, ← (w'.hear_eq e' view n).2]
    exact hc.failure.mpr hf

end Like

end Writer

/-! ## Listeners -/

variable [LabelProvider P]

/-- Two listeners are writers that are alike, or the same recorder. -/
inductive Listener.Like : Listener P → Listener P → Prop
  | writer {w w' : Writer P} (h : w.Like w') : Like (.writer w) (.writer w')
  | recorder (r : Recorder) : Like (.recorder r) (.recorder r)

namespace Listeners

open LabelProvider

/-- The listeners of two runs are alike one by one, and so are the places of their files. -/
structure Like (l l' : Listeners P) : Prop where
  members : List.Forall₂ Listener.Like l.members l'.members
  files : l'.surroundings.files.blank = l.surroundings.files.blank

/-- Two writers that had the same seat at the beginning of two runs have heard the same, which is
what has been delivered, but for the last delivery if a listener has failed at it. -/
def Follow (ms ms' : List (Listener P)) (m m' : Listeners P × Log) : Prop :=
  m'.2 = m.2 ∧ ∀ (j : Nat) (w w' : Writer P), ms[j]? = some (.writer w) →
    ms'[j]? = some (.writer w') →
    ∃ log, (m.2 = log ∨ ∃ d, m.2 = d :: log) ∧ m.1.members[j]? = some (.writer (w.heard log)) ∧
      m'.1.members[j]? = some (.writer (w'.heard log))

/-- Two runs agree: their listeners are alike, and have heard everything that has been delivered. -/
structure Agree (ms ms' : List (Listener P)) (m m' : Listeners P × Log) : Prop where
  like : Like m.1 m'.1
  log : m'.2 = m.2
  seats : ∀ (j : Nat) (w w' : Writer P), ms[j]? = some (.writer w) → ms'[j]? = some (.writer w') →
    m.1.members[j]? = some (.writer (w.heard m.2)) ∧
      m'.1.members[j]? = some (.writer (w'.heard m.2))

lemma Agree.follow {ms ms' : List (Listener P)} {m m' : Listeners P × Log}
    (h : Agree ms ms' m m') : Follow ms ms' m m' :=
  ⟨h.log, fun j w w' hw hw' => ⟨m.2, .inl rfl, h.seats j w w' hw hw'⟩⟩

end Listeners

end StateAtlas
