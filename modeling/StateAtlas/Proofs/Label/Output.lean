import StateAtlas.Proofs.File.Naming
import StateAtlas.Proofs.Label.Cutting
import StateAtlas.Proofs.Label.Growth

set_option autoImplicit false

/-!
# The files of label writers

At a limit and at the end a label writer writes files. One that cannot be written is reported, and
the end of the search is asked for; nothing else is reported in this way, and for no other reason
does a writer ask for the end. When everything could be written, the files contain what was to be
written, even if several writers have written side by side.

## Main definitions

* `StateAtlas.Surroundings.Unwritten` — a file could not be written.
* `StateAtlas.Writer.outputs` — the suffixes of the files of a writer with their contents.
* `StateAtlas.Writer.Filed` — the files of a writer contain what it writes.
* `StateAtlas.Writer.saveAll` — files are saved one after another.
* `StateAtlas.Writer.Attempt` — what comes of an attempt to save files under a name.

## Main results

* `StateAtlas.Writer.read_saveAll` — files that have been saved side by side can be read back.
* `StateAtlas.Listeners.hearAll_files` — label writers save their files one after another.
* `StateAtlas.Listeners.attempt_hearAll` — what comes of the attempts of label writers.
* `StateAtlas.Listeners.filed_hearAll` — at the end the files contain what the writers write.
-/

namespace StateAtlas

/-! ## Reports -/

namespace Surroundings

/-- A file could not be written. -/
def Unwritten (e : Surroundings) : Prop :=
  ∃ path error place, Writer.writeReport path error place ∈ e.log

/-- One more report. -/
lemma unwritten_report {e : Surroundings} {r : LogRecord} : (e.report r).Unwritten ↔
    e.Unwritten ∨ ∃ path error place, Writer.writeReport path error place = r := by
  simp only [Unwritten, report, Array.mem_push, exists_or]

/-- A warning is not the report of a file that could not be written. -/
lemma unwritten_report_of_warning {e : Surroundings} {r : LogRecord} (h : r.level = .warning) :
    (e.report r).Unwritten ↔ e.Unwritten := by
  rw [unwritten_report, or_iff_left]
  rintro ⟨path, error, place, rfl⟩
  simp [Writer.writeReport] at h

lemma unwritten_writeReport (e : Surroundings) (path : Path) (error : FileError) (place : Path) :
    (e.report (Writer.writeReport path error place)).Unwritten :=
  unwritten_report.mpr (.inr ⟨path, error, place, rfl⟩)

end Surroundings

/-- Neither is the end of the search asked for, nor has a listener failed. -/
structure Reaction.Calm (r : Reaction) : Prop where
  terminate : r.terminate = false
  failure : r.failure = .none

lemma Reaction.calm_andThen {a b : Reaction} : (a.andThen b).Calm ↔ a.Calm ∧ b.Calm := by
  constructor
  · rintro ⟨ht, hf⟩
    rw [andThen, Bool.or_eq_false_iff] at ht
    cases ha : a.failure with
    | some f => simp [andThen, ha] at hf
    | none => exact ⟨⟨ht.1, ha⟩, ht.2, by simpa [andThen, ha] using hf⟩
  · rintro ⟨ha, hb⟩
    exact ⟨by simp [andThen, ha.terminate, hb.terminate], by simp [andThen, ha.failure, hb.failure]⟩

namespace Surroundings

/-- What one listener makes of the surroundings, and then another one, unless the first has
failed. -/
def followedBy (x : Surroundings × Reaction) (f : Surroundings → Surroundings × Reaction) :
    Surroundings × Reaction :=
  if x.2.failure.isSome then x else ((f x.1).1, x.2.andThen (f x.1).2)

lemma followedBy_of_none {x : Surroundings × Reaction} (h : x.2.failure = none)
    (f : Surroundings → Surroundings × Reaction) :
    followedBy x f = ((f x.1).1, x.2.andThen (f x.1).2) := if_neg (by simp [h])

lemma followedBy_of_some {x : Surroundings × Reaction} {fault : Fault} (h : x.2.failure = some fault)
    (f : Surroundings → Surroundings × Reaction) : followedBy x f = x := if_pos (by simp [h])

lemma none_followedBy (e : Surroundings) (f : Surroundings → Surroundings × Reaction) :
    followedBy (e, .none) f = f e := by simp [followedBy, Reaction.andThen, Reaction.none]

@[simp] lemma followedBy_none (x : Surroundings × Reaction) :
    (followedBy x fun e => (e, .none)) = x := by
  unfold followedBy
  split
  · rfl
  · simp [Reaction.andThen, Reaction.none]

lemma followedBy_assoc (x : Surroundings × Reaction)
    (f g : Surroundings → Surroundings × Reaction) :
    followedBy (followedBy x f) g = followedBy x fun e => followedBy (f e) g := by
  cases hx : x.2.failure with
  | some fault =>
    rw [followedBy_of_some hx f, followedBy_of_some hx, followedBy_of_some hx]
  | none =>
    rw [followedBy_of_none hx f, followedBy_of_none hx]
    cases hf : (f x.1).2.failure with
    | some fault =>
      have hboth : (x.2.andThen (f x.1).2).failure = some fault := by
        simp [Reaction.andThen, hx, hf]
      rw [followedBy_of_some hf, followedBy_of_some hboth]
    | none =>
      rw [followedBy_of_none hf, followedBy_of_none]
      · simp [Reaction.andThen, hx, hf, Bool.or_assoc, Option.or_assoc]
      · simp [Reaction.andThen, hx, hf]

end Surroundings

namespace Writer

open Surroundings

/-! ## Saving files -/

/-- A suffix that makes the name of a file out of any name. -/
structure IsExtension (suffix : String) : Prop where
  slash : '/' ∉ suffix.toList
  null : '\x00' ∉ suffix.toList
  long : 2 < suffix.length

lemma IsExtension.head_ne {suffix : String} (h : IsExtension suffix) :
    suffix.toList.head? ≠ some '/' := fun hs => h.slash (List.mem_of_head? hs)

/-- Saves files under a name one after another, up to the first failure. -/
def saveAll (dir : Path) (name : String) :
    List (String × String) → Surroundings → Surroundings × Reaction
  | [], e => (e, .none)
  | o :: rest, e =>
    followedBy (save e (dir.join (Path.ofText (name ++ o.1))) o.2) (saveAll dir name rest)

lemma saveAll_append (dir : Path) (name : String) (os rest : List (String × String))
    (e : Surroundings) : saveAll dir name (os ++ rest) e =
      followedBy (saveAll dir name os e) (saveAll dir name rest) := by
  induction os generalizing e with
  | nil => exact (none_followedBy e _).symm
  | cons o os ih => rw [List.cons_append, saveAll, saveAll, followedBy_assoc, funext ih]

variable {dir : Path} {name : String} {e : Surroundings}

/-- What has been saved can be read, and so can what stands beside it. -/
lemma read_save {o : String × String} (ho : IsExtension o.1)
    (h : (save e (dir.join (Path.ofText (name ++ o.1))) o.2).2.Calm) {o' : String × String}
    (ho' : IsExtension o'.1) (hsame : o'.1 = o.1 → o'.2 = o.2)
    (hr : o' = o ∨ e.files.read (dir.join (Path.ofText (name ++ o'.1))) = .ok o'.2) :
    (save e (dir.join (Path.ofText (name ++ o.1))) o.2).1.files.read
      (dir.join (Path.ofText (name ++ o'.1))) = .ok o'.2 := by
  obtain ⟨folder, last, hpath⟩ := Path.exists_child_of_suffix dir name
  have hlength : ∀ {suffix : String}, IsExtension suffix → last ++ suffix ≠ ".." := by
    intro suffix hs heq
    have hlong := congrArg String.length heq
    have hdots : "..".length = 2 := rfl
    rw [String.length_append, hdots] at hlong
    have := hs.long
    omega
  rw [hpath o.1 ho.slash (by have := ho.long; omega)] at h ⊢
  rw [hpath o'.1 ho'.slash (by have := ho'.long; omega)] at hr ⊢
  rcases save_cases e (folder.child (last ++ o.1)) o.2 with
    ⟨-, heq⟩ | ⟨-, ⟨files, cause, heq⟩ | ⟨made, files, hmade, hwritten, heq⟩⟩
  · simpa [heq, Reaction.failing] using h.failure
  · simpa [heq, unsaved] using h.terminate
  · rw [heq]
    by_cases hsuffix : o'.1 = o.1
    · rw [hsuffix, hsame hsuffix]
      exact FileStore.read_write hwritten
    · have hr : e.files.asked.read (folder.child (last ++ o'.1)) = .ok o'.2 :=
        FileStore.read_asked.trans (hr.resolve_left fun h => hsuffix (by rw [h]))
      refine FileStore.read_of_write_sibling (hlength ho) (hlength ho') ?_ hwritten
        (FileStore.read_of_makeDirectories hmade hr)
      simpa using hsuffix

/-- Files that have been saved side by side can be read back, and so can what stood there before
under other names.

**Proof sketch.** Each file can be read when it has been saved, `read_save`, and when others have
been saved after it. -/
theorem read_saveAll : ∀ {os : List (String × String)} {e : Surroundings},
    (∀ o ∈ os, IsExtension o.1) → (saveAll dir name os e).2.Calm → ∀ {o : String × String},
      IsExtension o.1 → (∀ o' ∈ os, o.1 = o'.1 → o.2 = o'.2) →
        o ∈ os ∨ e.files.read (dir.join (Path.ofText (name ++ o.1))) = .ok o.2 →
          (saveAll dir name os e).1.files.read (dir.join (Path.ofText (name ++ o.1))) = .ok o.2
  | [], _, _, _, _, _, _, hr => hr.resolve_left (by simp)
  | a :: rest, e, hos, h, o, ho, hsame, hr => by
    obtain ⟨ha, hrest⟩ := List.forall_mem_cons.mp hos
    obtain ⟨hsame, hsames⟩ := List.forall_mem_cons.mp hsame
    rw [saveAll] at h ⊢
    cases hf : (save e (dir.join (Path.ofText (name ++ a.1))) a.2).2.failure with
    | some fault =>
      rw [followedBy_of_some hf] at h
      exact absurd (hf.symm.trans h.failure) (by simp)
    | none =>
      rw [followedBy_of_none hf] at h ⊢
      obtain ⟨hsaved, hcalm⟩ := Reaction.calm_andThen.mp h
      refine read_saveAll hrest hcalm ho hsames ?_
      rcases hr with hr | hr
      · rcases List.mem_cons.mp hr with rfl | hmem
        · exact .inr (read_save ha hsaved ho (fun _ => rfl) (.inl rfl))
        · exact .inl hmem
      · exact .inr (read_save ha hsaved ho hsame (.inr hr))

/-! ## Attempts -/

/-- What comes of an attempt to save files under a name, if there is one. The end of the search is
asked for if and only if a file could not be written. This does not happen where no file can have the
name, which is the only reason to fail. -/
structure Attempt (dir : Path) (name : Option String) (e e' : Surroundings) (r : Reaction) :
    Prop where
  unwritten : e'.Unwritten ↔ e.Unwritten ∨ r.terminate = true
  named : r.terminate = true → ∃ t, name = some t ∧ ¬dir.Barred t
  barred : ∀ t, name = some t → r.failure ≠ none → dir.Barred t

/-- Nothing is asked for. -/
lemma attempt_none (dir : Path) (name : Option String) (e : Surroundings) :
    Attempt dir name e e .none :=
  ⟨by simp [Reaction.none], by simp [Reaction.none], by simp [Reaction.none]⟩

/-- One attempt after the other. -/
lemma Attempt.andThen {dir : Path} {name : Option String} {e e' e'' : Surroundings}
    {a b : Reaction} (h : Attempt dir name e e' a) (h' : Attempt dir name e' e'' b) :
    Attempt dir name e e'' (a.andThen b) where
  unwritten := by
    rw [h'.unwritten, h.unwritten, or_assoc, Reaction.andThen, Bool.or_eq_true]
  named ht := by
    rw [Reaction.andThen, Bool.or_eq_true] at ht
    exact ht.elim h.named h'.named
  barred t hn hf := by
    by_cases ha : a.failure = none
    · exact h'.barred t hn fun hb => hf (by simp [Reaction.andThen, ha, hb])
    · exact h.barred t hn ha

/-- One attempt after the other, unless the first has failed. -/
lemma Attempt.followedBy {dir : Path} {name : Option String} {e : Surroundings}
    {x : Surroundings × Reaction} {f : Surroundings → Surroundings × Reaction}
    (h : Attempt dir name e x.1 x.2) (hf : ∀ e', Attempt dir name e' (f e').1 (f e').2) :
    Attempt dir name e (followedBy x f).1 (followedBy x f).2 := by
  unfold Surroundings.followedBy
  split
  · exact h
  · exact h.andThen (hf x.1)

/-- A file is saved. -/
lemma attempt_save (dir : Path) (name : String) (e : Surroundings) {o : String × String}
    (ho : IsExtension o.1) :
    Attempt dir (some name) e (save e (dir.join (Path.ofText (name ++ o.1))) o.2).1
      (save e (dir.join (Path.ofText (name ++ o.1))) o.2).2 := by
  have hnull : (dir.join (Path.ofText (name ++ o.1))).hasNull = true ↔ dir.Barred name :=
    Path.hasNull_iff.trans (Path.barred_append ho.head_ne ho.null)
  rcases save_cases e (dir.join (Path.ofText (name ++ o.1))) o.2 with
    ⟨hbarred, heq⟩ | ⟨hfree, ⟨files, cause, heq⟩ | ⟨made, files, -, -, heq⟩⟩
  · rw [heq]
    refine ⟨by simp [Reaction.failing], by simp [Reaction.failing], fun t ht _ => ?_⟩
    obtain rfl := Option.some.inj ht
    exact hnull.mp hbarred
  · rw [heq]
    exact ⟨by simp [unsaved, Surroundings.unwritten_writeReport],
      fun _ => ⟨name, rfl, fun hb => Bool.false_ne_true (hfree.symm.trans (hnull.mpr hb))⟩,
      by simp [unsaved, Reaction.none]⟩
  · rw [heq]
    exact ⟨by simp [Reaction.none, Surroundings.Unwritten], by simp [Reaction.none],
      by simp [Reaction.none]⟩

/-- Files are saved one after another. -/
lemma attempt_saveAll (dir : Path) (name : String) : ∀ {os : List (String × String)}
    (e : Surroundings), (∀ o ∈ os, IsExtension o.1) →
      Attempt dir (some name) e (saveAll dir name os e).1 (saveAll dir name os e).2
  | [], e, _ => attempt_none dir (some name) e
  | o :: rest, e, hos => by
    obtain ⟨ho, hrest⟩ := List.forall_mem_cons.mp hos
    rw [saveAll]
    exact (attempt_save dir name e ho).followedBy fun e' => attempt_saveAll dir name e' hrest

end Writer

/-! ## What label writers write -/

/-- The name of the files that are written at a notice. -/
def Notice.title? (view : View) : Notice → Option String
  | .constraintHit => some (view.name ++ "_" ++ view.constraint.getD "None")
  | .finished => some view.name
  | _ => none

namespace Writer

variable {P : Type}

/-- The suffixes of the files of a writer, with their contents. -/
def outputs (w : Writer P) : List (String × String) :=
  match w.journal with
  | .text _ => [(".lab", w.render)]
  | .graph .. => [(".dot", w.render), ("_legend.dot", w.legend)]
  | .plain .. => []

/-- The files of a writer contain what it writes. -/
def Filed (w : Writer P) (files : FileStore) (name : String) : Prop :=
  ∀ o ∈ w.outputs, files.read (w.outputPath name o.1) = .ok o.2

/-- What a writer writes at a notice: the legend at the end only. -/
def outputsAt (w : Writer P) : Notice → List (String × String)
  | .constraintHit => w.outputs.take 1
  | .finished => w.outputs
  | _ => []

lemma isExtension_of_mem {w : Writer P} {o : String × String} (h : o ∈ w.outputs) :
    IsExtension o.1 := by
  have hs : o.1 = ".lab" ∨ o.1 = ".dot" ∨ o.1 = "_legend.dot" := by
    unfold outputs at h
    split at h
    · simp_all
    · rcases List.mem_pair.mp h with rfl | rfl <;> simp
    · simp at h
  rcases hs with hs | hs | hs <;> rw [hs] <;> exact ⟨by decide, by decide, by decide⟩

lemma outputsAt_subset (w : Writer P) (n : Notice) : w.outputsAt n ⊆ w.outputs := by
  cases n with
  | constraintHit => exact List.take_subset _ _
  | finished => exact List.Subset.refl _
  | _ => exact List.nil_subset _

/-- The journal is saved first. -/
lemma writeJournal_eq_saveAll (w : Writer P) (e : Surroundings) (name : String) :
    (w.writeJournal e name).2 = saveAll w.outputDir name (w.outputs.take 1) e := by
  rw [writeJournal, outputs]
  cases w.journal <;> simp [saveAll, outputPath, Journal.suffix]

/-- Then the legend is saved. -/
lemma writeLegend_eq_saveAll (w : Writer P) (e : Surroundings) (name : String) :
    w.writeLegend e name = saveAll w.outputDir name (w.outputs.drop 1) e := by
  rw [writeLegend, outputs]
  cases w.journal <;> simp [saveAll, outputPath]

/-- The journal is the same after it has been written, but for its list of names. -/
lemma outputs_writeJournal (w : Writer P) (e : Surroundings) (name : String) :
    (w.writeJournal e name).1.outputs = w.outputs ∧
      (w.writeJournal e name).1.outputDir = w.outputDir := by
  rw [writeJournal]
  split
  · rename_i hj
    exact ⟨by simp [outputs, hj], rfl⟩
  · exact ⟨rfl, rfl⟩

variable [LabelProvider P]

/-- At a limit and at the end a writer saves its files. -/
lemma hear_files {view : View} {n : Notice} {name : String} (h : n.title? view = some name)
    (w : Writer P) (e : Surroundings) :
    (w.hear e view n).2 = saveAll w.outputDir name (w.outputsAt n) e ∧
      (w.attend ⟨view, n⟩).outputs = w.outputs ∧
      (w.attend ⟨view, n⟩).outputDir = w.outputDir := by
  cases n with
  | constraintHit =>
    obtain rfl := Option.some.inj h
    exact ⟨w.writeJournal_eq_saveAll e _, w.outputs_writeJournal .empty _⟩
  | finished =>
    obtain rfl := Option.some.inj h
    refine ⟨?_, by rw [attend_finished]; exact w.outputs_writeJournal .empty _⟩
    obtain ⟨houtputs, hdir⟩ := w.outputs_writeJournal e view.name
    have hjournal := w.writeJournal_eq_saveAll e view.name
    rw [outputsAt, ← List.take_append_drop 1 w.outputs, saveAll_append, ← hjournal]
    have hlegend : ∀ e', (w.writeJournal e view.name).1.writeLegend e' view.name =
        saveAll w.outputDir view.name (w.outputs.drop 1) e' := fun e' => by
      rw [writeLegend_eq_saveAll, houtputs, hdir]
    simp only [hear, Surroundings.followedBy]
    split
    · rfl
    · simp only [hlegend]
  | _ => simp [Notice.title?] at h

/-- At any other notice a writer leaves its surroundings as they are, and does not ask for the
end. -/
lemma hear_silent {view : View} {n : Notice} (h : n.title? view = none) (w : Writer P)
    (e : Surroundings) : (w.hear e view n).2.1 = e ∧ (w.hear e view n).2.2.terminate = false := by
  have reaction : ∀ f : Option Fault, (reactionOf f).terminate = false := fun f => by
    cases f <;> rfl
  cases n with
  | started => exact ⟨rfl, reaction _⟩
  | advanced =>
    simp only [hear]
    split
    · split <;> exact ⟨rfl, rfl⟩
    · exact ⟨rfl, rfl⟩
  | executing i => exact ⟨rfl, reaction _⟩
  | executed i next =>
    simp only [hear]
    split <;> exact ⟨rfl, rfl⟩
  | backtracked | restored => exact ⟨rfl, rfl⟩
  | constraintHit | finished => simp [Notice.title?] at h

/-- A writer stays in its directory. -/
lemma outputDir_attend (w : Writer P) (d : Delivery) : (w.attend d).outputDir = w.outputDir :=
  (w.grows_hear .empty d.view d.notice).outputDir

lemma outputDir_heard (w : Writer P) (log : Log) : (w.heard log).outputDir = w.outputDir := by
  induction log with
  | nil => rfl
  | cons d log ih => rw [heard, outputDir_attend, ih]

end Writer

namespace Listeners

open Writer Surroundings

variable {P : Type} [LabelProvider P] {view : View} {n : Notice} {name : String} {dir : Path}

/-- Label writers react one after the other, up to the first failure. -/
lemma hearAll_cons (w : Writer P) (ls : List (Listener P)) (e : Surroundings) :
    (hearAll view n (.writer w :: ls) e).2 =
      followedBy (w.hear e view n).2 fun e => (hearAll view n ls e).2 := by
  rw [hearAll, hearOne_writer, followedBy]
  simp only
  split <;> rfl

/-- Label writers with a common directory save their files one after another. -/
theorem hearAll_files (h : n.title? view = some name) : ∀ {ws : List (Writer P)}
    (_ : ∀ w ∈ ws, w.outputDir = dir) (e : Surroundings),
      (hearAll view n (ws.map .writer) e).2 =
        saveAll dir name (ws.flatMap fun w => w.outputsAt n) e
  | [], _, e => rfl
  | w :: ws, hws, e => by
    obtain ⟨hw, hws⟩ := List.forall_mem_cons.mp hws
    have htail := funext (hearAll_files h hws)
    rw [List.map_cons, hearAll_cons, htail, List.flatMap_cons, saveAll_append,
      (hear_files h w e).1, hw]

/-- At any other notice they leave their surroundings as they are, and do not ask for the end. -/
lemma hearAll_silent (h : n.title? view = none) : ∀ (ws : List (Writer P)) (e : Surroundings),
    (hearAll view n (ws.map .writer) e).2.1 = e ∧
      (hearAll view n (ws.map .writer) e).2.2.terminate = false
  | [], e => ⟨rfl, rfl⟩
  | w :: ws, e => by
    obtain ⟨he, hr⟩ := hear_silent h w e
    obtain ⟨he', hr'⟩ := hearAll_silent h ws e
    rw [List.map_cons, hearAll_cons, followedBy, he]
    split
    · exact ⟨he, hr⟩
    · exact ⟨he', by simp [Reaction.andThen, hr, hr']⟩

/-- What comes of the attempts of label writers with a common directory to save their files. -/
theorem attempt_hearAll {ws : List (Writer P)} (hws : ∀ w ∈ ws, w.outputDir = dir) (view : View)
    (n : Notice) (e : Surroundings) :
    Attempt dir (n.title? view) e (hearAll view n (ws.map .writer) e).2.1
      (hearAll view n (ws.map .writer) e).2.2 := by
  cases h : n.title? view with
  | none =>
    obtain ⟨he, hr⟩ := hearAll_silent h ws e
    exact ⟨by simp [he, hr], by simp [hr], by simp⟩
  | some name =>
    rw [hearAll_files h hws e]
    refine attempt_saveAll dir name e fun o ho => ?_
    obtain ⟨w, -, ho⟩ := List.mem_flatMap.mp ho
    exact isExtension_of_mem (w.outputsAt_subset n ho)

/-- When label writers with a common directory could save all their files at the end, these contain
what the writers write, provided that files of one name are to contain the same. -/
theorem filed_hearAll {ws : List (Writer P)} (hws : ∀ w ∈ ws, w.outputDir = dir)
    (hsame : ∀ w ∈ ws, ∀ w' ∈ ws, ∀ o ∈ w.outputs, ∀ o' ∈ w'.outputs, o.1 = o'.1 → o.2 = o'.2)
    (view : View) (e : Surroundings)
    (h : (hearAll view .finished (ws.map .writer) e).2.2.Calm) :
    ∀ w ∈ ws, (w.attend ⟨view, .finished⟩).Filed
      (hearAll view .finished (ws.map .writer) e).2.1.files view.name := by
  intro w hw o ho
  have htitle : Notice.title? view .finished = some view.name := rfl
  obtain ⟨-, houtputs, hdir⟩ := hear_files htitle w e
  rw [houtputs] at ho
  rw [hearAll_files htitle hws e] at h ⊢
  rw [outputPath, hdir, hws w hw]
  refine read_saveAll (fun o ho => ?_) h (isExtension_of_mem ho) (fun o' ho' heq => ?_)
    (.inl (List.mem_flatMap.mpr ⟨w, hw, ho⟩))
  · obtain ⟨w', -, ho⟩ := List.mem_flatMap.mp ho
    exact isExtension_of_mem ho
  · obtain ⟨w', hw', ho'⟩ := List.mem_flatMap.mp ho'
    exact hsame w hw w' hw' o ho o' ho' heq

end Listeners

end StateAtlas
