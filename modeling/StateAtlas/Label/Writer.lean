import StateAtlas.File.Store
import StateAtlas.Label.Journal
import StateAtlas.Label.Tally
import StateAtlas.Log

set_option autoImplicit false

/-!
# Label writers

A label writer follows a search: it gathers the labels of every new state from its providers,
asks for a boundary where a provider wants one, records the labelled states in its journal, and
writes the journal to a file whenever a limit is hit and when the search is over. A file that
cannot be written is reported and ends the search.

## Main definitions

* `StateAtlas.Surroundings` — the file store and the log that all listeners share.
* `StateAtlas.Writer` — a label writer.
* `StateAtlas.Writer.hear` — the reaction of a writer to a notice.
-/

namespace StateAtlas

/-- What the listeners of a run share: the files, and the reports. -/
structure Surroundings where
  files : FileStore
  log : Array LogRecord
  deriving Inhabited

namespace Surroundings

/-- No files and no reports. -/
def empty : Surroundings := ⟨.empty, #[]⟩

/-- Adds a report. -/
def report (e : Surroundings) (r : LogRecord) : Surroundings := { e with log := e.log.push r }

/-- Adds reports. -/
def reportAll (e : Surroundings) (rs : List LogRecord) : Surroundings := rs.foldl report e

end Surroundings

/-- A label writer with providers of type `P`. -/
structure Writer (P : Type) where
  providers : List P
  tally : Tally
  journal : Journal
  outputDir : Path
  deriving Inhabited

namespace Writer

/-- A writer that has not heard anything yet. -/
def new {P : Type} (providers : List P) (journal : Journal) (outputDir : Path) : Writer P :=
  ⟨providers, .empty, journal, outputDir⟩

/-- The path of an output file. -/
def outputPath {P : Type} (w : Writer P) (name suffix : String) : Path :=
  w.outputDir.join (Path.ofText (name ++ suffix))

/-- The text of the journal. -/
def render {P : Type} (w : Writer P) : String := w.journal.render w.tally.registry.labels

/-- The legend of all labels met so far. -/
def legend {P : Type} (w : Writer P) : String := Legend.render w.tally.registry.labels

/-- The report of a file that cannot be written. -/
def writeReport (path : Path) (e : FileError) (place : Path) : LogRecord :=
  ⟨.error, "[LABEL] Could not write " ++ path.text ++ ": " ++ e.message place⟩

/-- A file that cannot be saved is reported, and ends the search. -/
def unsaved (e : Surroundings) (path : Path) (cause : FileError × Path) : Surroundings × Reaction :=
  (e.report (writeReport path cause.1 cause.2), { Reaction.none with terminate := true })

/-- Writes a file with the directories above it, unless the system refuses. -/
def save (e : Surroundings) (path : Path) (content : String) : Surroundings × Reaction :=
  if path.hasNull then (e, .failing .nullInPath)
  else
    match e.files.refusal? with
    | some cause => unsaved { e with files := e.files.asked } path cause
    | none =>
      match e.files.asked.makeDirectories path.parent with
      | .error cause => unsaved { e with files := e.files.asked } path cause
      | .ok files =>
        match files.write path content with
        | .error cause => unsaved { e with files := files } path cause
        | .ok files => ({ e with files := files }, .none)

section Providers

variable {P : Type} [LabelProvider P]

/-- Records a new state with its labels: those gathered before it and those that hold in it. -/
def labelState (w : Writer P) (view : View) (id : Int) : Writer P × Option Fault :=
  match w.tally.askStates view w.providers with
  | (providers, tally, some f) => ({ w with providers, tally }, some f)
  | (providers, tally, none) =>
    ({ w with
        providers
        tally := tally.clear
        journal := w.journal.label ⟨id, tally.current⟩ }, none)

/-- Writes the journal under a name. -/
def writeJournal (w : Writer P) (e : Surroundings) (name : String) :
    Writer P × Surroundings × Reaction :=
  match w.journal with
  | .plain states written =>
    ({ w with journal := .plain states (written.push name) }, e, .none)
  | journal =>
    let (e, r) := save e (w.outputPath name journal.suffix) w.render
    (w, e, r)

/-- Writes the legend beside a graph. -/
def writeLegend (w : Writer P) (e : Surroundings) (name : String) : Surroundings × Reaction :=
  match w.journal with
  | .graph .. => save e (w.outputPath name "_legend.dot") w.legend
  | _ => (e, .none)

/-- The failure of a labelling step as a reaction. -/
def reactionOf : Option Fault → Reaction
  | some f => .failing f
  | none => .none

/-- The reaction of a writer to a notice. -/
def hear (w : Writer P) (e : Surroundings) (view : View) :
    Notice → Writer P × Surroundings × Reaction
  | .started =>
    let (w, failure) := { w with tally := w.tally.clear }.labelState view (-1)
    (w, e, reactionOf failure)
  | .advanced =>
    if view.isNew then
      match w.labelState view view.stateId with
      | (w, some f) => (w, e, .failing f)
      | (w, none) => ({ w with journal := w.journal.advance view.stateId }, e, .none)
    else ({ w with journal := w.journal.advance view.stateId }, e, .none)
  | .backtracked | .restored => ({ w with journal := w.journal.move view.stateId }, e, .none)
  | .executing i =>
    let (providers, failure) := Tally.prepare view.scene i w.providers
    ({ w with providers }, e, reactionOf failure)
  | .executed i next =>
    match Tally.askBreaks view.scene i next w.providers w.tally.clear with
    | (providers, tally, .error f) => ({ w with providers, tally }, e, .failing f)
    | (providers, tally, .ok wanted) =>
      ({ w with providers, tally }, e,
        { Reaction.none with breakReason := if wanted then some "Instruction executed" else none })
  | .constraintHit =>
    w.writeJournal e (view.name ++ "_" ++ view.constraint.getD "None")
  | .finished =>
    match w.writeJournal e view.name with
    | (w, e, r) =>
      if r.failure.isSome then (w, e, r)
      else
        let (e, r') := w.writeLegend e view.name
        (w, e, r.andThen r')

end Providers

end Writer

end StateAtlas
