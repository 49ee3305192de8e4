import Mathlib.Data.List.Infix
import Mathlib.Logic.Relation
import StateAtlas.Proofs.Label.Readback

set_option autoImplicit false

/-!
# What a writer writes only grows

A label keeps its index for the whole session of a writer, and nothing that has been written is
taken back: what a later file says begins with what an earlier one has said. So an index that
stands in a file written at a limit means the same label, with the same colour, in the file written
at the end and in its legend. The files themselves have no part in this, whether or not they can be
written.

## Main definitions

* `StateAtlas.Journal.entries` — the entries of the header of a text.
* `StateAtlas.Writer.Hears` — a writer becomes another one by hearing a notice.
* `StateAtlas.Writer.Grows` — nothing is taken back from one writer to another.
* `StateAtlas.Writer.Bounded` — every recorded index is that of a label.

## Main results

* `StateAtlas.Writer.grows_hear`, `StateAtlas.Writer.bounded_hear` — so it is at every notice.
* `StateAtlas.Writer.output_grows` — a later output extends an earlier one, in which every index
  means what it means later.
-/

namespace StateAtlas

variable {P : Type}

/-! ## Entries and rows -/

namespace Journal

/-- The entry of a label in the header of a text. -/
def entry (index : Nat) (l : Label) : String := toString index ++ "=\"" ++ l.name ++ "\" "

/-- The entries of labels whose indices start at a number. -/
def entries (index : Nat) (labels : List Label) : List String :=
  labels.mapIdx fun i l => entry (index + i) l

/-- The header of a text consists of its entries. -/
lemma enumerate_eq (index : Nat) (labels : List Label) :
    enumerate index labels = String.join (entries index labels) := by
  induction labels generalizing index with
  | nil => rfl
  | cons l ls ih =>
    rw [enumerate, ih]
    simp only [entries, List.mapIdx_cons, String.join_cons, entry, Nat.add_zero, Nat.add_assoc,
      Nat.add_comm 1]

/-- The edges of a graph. -/
def edges : Journal → Array (Int × Int)
  | .graph _ _ edges => edges
  | _ => #[]

/-- The journal is one of a format. -/
def HasFormat (j : Journal) (f : OutputFormat) : Prop := j.suffix = (ofFormat f).suffix

lemma hasFormat_text {j : Journal} : j.HasFormat .text ↔ ∃ states, j = .text states := by
  cases j <;> simp [HasFormat, suffix, ofFormat]

lemma hasFormat_dot {j : Journal} :
    j.HasFormat .dot ↔ ∃ cursor states edges, j = .graph cursor states edges := by
  cases j <;> simp [HasFormat, suffix, ofFormat]

end Journal

namespace Legend

lemma rows_eq (index : Nat) (labels : List Label) :
    rows index labels = labels.mapIdx fun i l => row (Color.text (index + i)) l.description := by
  induction labels generalizing index with
  | nil => rfl
  | cons l ls ih =>
    rw [rows, ih, List.mapIdx_cons]
    simp only [Nat.add_zero, Nat.add_assoc, Nat.add_comm 1]

end Legend

/-- What is made of the entries of a list in their places grows with the list. -/
lemma isPrefix_mapIdx {α β : Type} (f : Nat → α → β) {as bs : List α} (h : as <+: bs) :
    as.mapIdx f <+: bs.mapIdx f := by
  obtain ⟨later, rfl⟩ := h
  rw [List.mapIdx_append]
  exact List.prefix_append _ _

/-! ## Journals that grow -/

namespace Journal

/-- From one journal to another of the same kind, nothing is taken back. -/
structure Grows (j j' : Journal) : Prop where
  suffix : j'.suffix = j.suffix
  states : j.states.toList <+: j'.states.toList
  edges : j.edges.toList <+: j'.edges.toList

lemma Grows.refl (j : Journal) : j.Grows j := ⟨rfl, List.prefix_refl _, List.prefix_refl _⟩

lemma Grows.trans {j j' j'' : Journal} (h : j.Grows j') (h' : j'.Grows j'') : j.Grows j'' :=
  ⟨h'.suffix.trans h.suffix, h.states.trans h'.states, h.edges.trans h'.edges⟩

lemma grows_label (j : Journal) (s : LabeledState) : j.Grows (j.label s) := by
  refine ⟨?_, ?_, ?_⟩
  · cases j <;> simp only [label] <;> (try split) <;> rfl
  · rcases j.states_label s with hs | ⟨hs, -⟩
    · rw [hs, Array.toList_push]
      exact List.prefix_append _ _
    · rw [hs]
  · cases j <;> simp only [label] <;> (try split) <;> exact List.prefix_refl _

lemma grows_advance (j : Journal) (id : Int) : j.Grows (j.advance id) := by
  refine ⟨by cases j <;> rfl, by rw [states_advance], ?_⟩
  cases j with
  | graph cursor states edges =>
    rw [advance, Journal.edges, Journal.edges, Array.toList_push]
    exact List.prefix_append _ _
  | _ => exact List.prefix_refl _

lemma grows_move (j : Journal) (id : Int) : j.Grows (j.move id) :=
  ⟨by cases j <;> rfl, by rw [states_move], by cases j <;> exact List.prefix_refl _⟩

end Journal

/-! ## Writers that grow -/

namespace Writer

/-- From one writer to another, nothing is taken back. -/
structure Grows (w w' : Writer P) : Prop where
  outputDir : w'.outputDir = w.outputDir
  registry : w.tally.registry.labels <+: w'.tally.registry.labels
  journal : w.journal.Grows w'.journal

lemma Grows.refl (w : Writer P) : w.Grows w := ⟨rfl, List.prefix_refl _, .refl _⟩

lemma Grows.trans {w w' w'' : Writer P} (h : w.Grows w') (h' : w'.Grows w'') : w.Grows w'' :=
  ⟨h'.outputDir.trans h.outputDir, h.registry.trans h'.registry, h.journal.trans h'.journal⟩

/-- Writing the journal takes nothing back, whether or not it succeeds. -/
lemma grows_writeJournal (w : Writer P) (e : Surroundings) (name : String) :
    w.Grows (w.writeJournal e name).1 := by
  rw [writeJournal]
  split
  · rename_i states written hj
    exact ⟨rfl, List.prefix_refl _, by rw [hj]; exact ⟨rfl, List.prefix_refl _, List.prefix_refl _⟩⟩
  · exact .refl w

/-- A writer of text or of graphs is what it was after its journal has been written, whether or not
that has succeeded. -/
lemma writeJournal_eq {w : Writer P} (h : w.journal.suffix ≠ ".rec") (e : Surroundings)
    (name : String) : w.writeJournal e name =
      (w, save e (w.outputPath name w.journal.suffix) w.render) := by
  rw [writeJournal]
  split
  · rename_i hj
    simp [hj, Journal.suffix] at h
  · rfl

variable [LabelProvider P]

/-- Labelling a state takes nothing back, even if a provider fails. -/
lemma grows_labelState (w : Writer P) (view : View) (id : Int) :
    w.Grows (w.labelState view id).1 := by
  have hgrows := Tally.askStates_grows view w.providers w.tally
  rw [labelState]
  split
  · rename_i hask
    rw [hask] at hgrows
    exact ⟨rfl, hgrows, .refl _⟩
  · rename_i hask
    rw [hask] at hgrows
    exact ⟨rfl, hgrows, Journal.grows_label _ _⟩

/-- No notice makes a writer take anything back, whatever the files are.

**Proof sketch.** One case for each notice. Labels are only ever added, even by a provider that
fails later, and a journal is only ever appended to. -/
theorem grows_hear (w : Writer P) (e : Surroundings) (view : View) (n : Notice) :
    w.Grows (w.hear e view n).1 := by
  rw [(w.hear_eq e view n).1, attend]
  cases n with
  | started =>
    have hclear : w.Grows { w with tally := w.tally.clear } := ⟨rfl, List.prefix_refl _, .refl _⟩
    exact hclear.trans (grows_labelState _ view (-1))
  | advanced =>
    by_cases hnew : view.isNew = true
    · have hlabel := w.grows_labelState view view.stateId
      simp only [hear_advanced hnew]
      split
      · exact hlabel.trans ⟨rfl, List.prefix_refl _, Journal.grows_advance _ _⟩
      · exact hlabel
    · simp only [hear, if_neg hnew]
      exact ⟨rfl, List.prefix_refl _, Journal.grows_advance _ _⟩
  | backtracked | restored => exact ⟨rfl, List.prefix_refl _, Journal.grows_move _ _⟩
  | executing i => exact ⟨rfl, List.prefix_refl _, .refl _⟩
  | executed i next =>
    have hgrows := Tally.askBreaks_grows view.scene i next w.providers w.tally.clear
    simp only [hear]
    split <;>
    · rename_i hask
      rw [hask] at hgrows
      exact ⟨rfl, hgrows, .refl _⟩
  | constraintHit => exact grows_writeJournal _ _ _
  | finished =>
    rw [← attend, w.attend_finished view]
    exact grows_writeJournal _ _ _

/-! ## Recorded indices -/

omit [LabelProvider P] in
/-- Every index that has been gathered or recorded is that of a label. -/
structure Bounded (w : Writer P) : Prop where
  tally : w.tally.Tidy fun _ => True
  records : ∀ r ∈ w.journal.states, ∀ i ∈ r.indices, i < w.tally.registry.labels.length

omit [LabelProvider P] in
lemma bounded_new (ps : List P) (f : OutputFormat) (dir : Path) :
    (new ps (.ofFormat f) dir).Bounded :=
  ⟨Tally.tidy_empty, by cases f <;> simp [new, Journal.ofFormat, Journal.states]⟩

omit [LabelProvider P] in
/-- More labels, and nothing recorded. -/
lemma Bounded.keep {w w' : Writer P} (h : w.Bounded) (ht : w'.tally.Tidy fun _ => True)
    (hg : w.Grows w') (hj : w'.journal.states = w.journal.states) : w'.Bounded :=
  ⟨ht, fun r hr i hi => (h.records r (hj ▸ hr) i hi).trans_le hg.registry.length_le⟩

/-- Any providers name some labels. -/
lemma upholds_trivial : LabelProvider.Upholds (fun _ => True) (fun _ => True) (fun _ : P => True)
    fun _ => True :=
  ⟨fun _ _ _ _ => ⟨trivial, fun _ _ => trivial⟩, fun _ _ _ _ => trivial,
    fun _ _ _ _ _ => ⟨trivial, fun _ _ => trivial⟩, fun _ _ _ _ => ⟨trivial, fun _ _ => trivial⟩⟩

/-- The indices that are recorded for a state have been gathered, and are those of labels. -/
lemma Bounded.labelState {w : Writer P} (h : w.Bounded) (view : View) (id : Int) :
    (w.labelState view id).1.Bounded := by
  have hg := w.grows_labelState view id
  have ht : (Tally.askStates view w.providers w.tally).2.1.Tidy fun _ => True :=
    (h.tally.askStates upholds_trivial trivial fun _ _ => trivial).1
  revert hg ht
  rw [Writer.labelState]
  split
  · rename_i hask
    intro hg ht
    rw [hask] at ht
    exact h.keep ht hg rfl
  · rename_i hask
    intro hg ht
    rw [hask] at ht
    refine ⟨ht.clear, fun r hr i hi => ?_⟩
    rcases Journal.mem_of_mem_label hr with hr | rfl
    · exact (h.records r hr i hi).trans_le hg.registry.length_le
    · exact ht.known i hi

/-- At no notice an index is recorded that is not that of a label.

**Proof sketch.** What is recorded has been gathered, and what is gathered has an index. -/
theorem bounded_hear {w : Writer P} (h : w.Bounded) (e : Surroundings) (view : View) (n : Notice) :
    (w.hear e view n).1.Bounded := by
  have hg := w.grows_hear e view n
  rw [(w.hear_eq e view n).1, attend] at hg ⊢
  cases n with
  | started =>
    have hclear : Bounded { w with tally := w.tally.clear } := ⟨h.tally.clear, h.records⟩
    exact hclear.labelState view (-1)
  | advanced =>
    by_cases hnew : view.isNew = true
    · have hlabel := h.labelState view view.stateId
      simp only [hear_advanced hnew]
      split
      · exact ⟨hlabel.tally, by simpa using hlabel.records⟩
      · exact hlabel
    · simp only [hear, if_neg hnew]
      exact ⟨h.tally, by simpa using h.records⟩
  | backtracked | restored => exact ⟨h.tally, by simpa [hear] using h.records⟩
  | executing i => exact ⟨h.tally, h.records⟩
  | executed i next =>
    have ht : (Tally.askBreaks view.scene i next w.providers w.tally.clear).2.1.Tidy
        fun _ => True :=
      (h.tally.clear.askBreaks upholds_trivial view.scene trivial next fun _ _ => trivial).1
    revert hg
    simp only [hear]
    split <;>
    · rename_i hask
      intro hg
      rw [hask] at ht
      exact h.keep ht hg rfl
  | constraintHit =>
    obtain ⟨-, ht, hj⟩ := w.writeJournal_fst .empty (view.name ++ "_" ++ view.constraint.getD "None")
    exact h.keep (ht ▸ h.tally) hg hj
  | finished =>
    rw [← attend, w.attend_finished view] at hg ⊢
    obtain ⟨-, ht, hj⟩ := w.writeJournal_fst .empty view.name
    exact h.keep (ht ▸ h.tally) hg hj

/-! ## Sessions -/

/-- A writer becomes another one by hearing a notice, whatever the files are. -/
def Hears (w w' : Writer P) : Prop := ∃ e view n, (w.hear e view n).1 = w'

/-- Nothing is taken back in a session. -/
lemma grows_session {w w' : Writer P} (h : Relation.ReflTransGen Hears w w') : w.Grows w' := by
  induction h with
  | refl => exact .refl w
  | tail _ h ih =>
    obtain ⟨e, view, n, rfl⟩ := h
    exact ih.trans (grows_hear _ e view n)

/-- In a session every recorded index is that of a label. -/
lemma bounded_session {w w' : Writer P} (hw : w.Bounded) (h : Relation.ReflTransGen Hears w w') :
    w'.Bounded := by
  induction h with
  | refl => exact hw
  | tail _ h ih =>
    obtain ⟨e, view, n, rfl⟩ := h
    exact bounded_hear ih e view n

/-! ## What a writer writes -/

section Output

variable (w : Writer P)

/-- The entries of the header of a text. -/
def headerEntries : List String := Journal.entries 0 w.tally.registry.labels

/-- The lines of the states in a text. -/
def stateLines : List String := w.journal.states.toList.map LabeledState.line

/-- The nodes of a graph. -/
def nodeLines : List String := w.journal.states.toList.map LabeledState.node

/-- The edges of a graph. -/
def edgeLines : List String := w.journal.edges.toList.map edgeText

/-- The rows of the legend. -/
def legendRows : List String := Legend.rows 0 w.tally.registry.labels

/-- The text of a text journal, assembled of its entries and lines. -/
def assembledText : String := String.join w.headerEntries ++ "\n" ++ String.join w.stateLines

/-- The text of a graph, assembled of its nodes and edges. -/
def assembledGraph : String :=
  "digraph statespace \x7b\n" ++ "node [colorscheme=\"" ++ Color.scheme ++ "\" style=wedged]\n" ++
    String.join w.nodeLines ++ String.join w.edgeLines ++ "\x7d\n"

/-- The text of a journal of some format. -/
def assembled : OutputFormat → String
  | .text => w.assembledText
  | .dot => w.assembledGraph

/-- What the surroundings become when everything is written under a name. -/
def filed (f : OutputFormat) (e : Surroundings) (name : String) : Surroundings :=
  let written := (save e (w.outputPath name (Journal.ofFormat f).suffix) (w.assembled f)).1
  match f with
  | .text => written
  | .dot => (save written (w.outputPath name "_legend.dot") w.legend).1

end Output

omit [LabelProvider P] in
/-- What is written grows with the writer. -/
lemma Grows.output {w w' : Writer P} (h : w.Grows w') :
    w.headerEntries <+: w'.headerEntries ∧ w.stateLines <+: w'.stateLines ∧
      w.nodeLines <+: w'.nodeLines ∧ w.edgeLines <+: w'.edgeLines ∧
      w.legendRows <+: w'.legendRows := by
  refine ⟨isPrefix_mapIdx _ h.registry, h.journal.states.map _, h.journal.states.map _,
    h.journal.edges.map _, ?_⟩
  rw [legendRows, legendRows, Legend.rows_eq, Legend.rows_eq]
  exact isPrefix_mapIdx _ h.registry

omit [LabelProvider P] in
/-- The index of a label is that of its entry in the header and of its row in the legend. -/
lemma output_of_label {w : Writer P} {i : Nat} {l : Label}
    (h : w.tally.registry.labels[i]? = some l) :
    w.headerEntries[i]? = some (Journal.entry i l) ∧
      w.legendRows[i]? = some (Legend.row (Color.text i) l.description) := by
  rw [headerEntries, Journal.entries, legendRows, Legend.rows_eq]
  simp [h]

omit [LabelProvider P] in
/-- The text of a journal is assembled of these. -/
lemma render_eq {w : Writer P} {f : OutputFormat} (h : w.journal.HasFormat f) :
    w.render = w.assembled f := by
  cases f with
  | text =>
    obtain ⟨states, hj⟩ := Journal.hasFormat_text.mp h
    have hlines : w.stateLines = states.toList.map LabeledState.line := by
      rw [stateLines, hj, Journal.states]
    rw [render, hj, assembled, assembledText, headerEntries, ← Journal.enumerate_eq, hlines]
    rfl
  | dot =>
    obtain ⟨cursor, states, edges, hj⟩ := Journal.hasFormat_dot.mp h
    have hnodes : w.nodeLines = states.toList.map LabeledState.node := by
      rw [nodeLines, hj, Journal.states]
    have hedges : w.edgeLines = edges.toList.map edgeText := by rw [edgeLines, hj, Journal.edges]
    rw [render, hj, assembled]
    delta assembledGraph
    rw [hnodes, hedges]
    rfl

/-- What is heard at a limit and at the end has the files written; the writer stays the same,
whether or not that succeeds. -/
lemma hear_written {w : Writer P} {f : OutputFormat} (h : w.journal.HasFormat f) (e : Surroundings)
    (view : View) :
    w.hear e view .constraintHit =
        (w, save e (w.outputPath (view.name ++ "_" ++ view.constraint.getD "None")
          (Journal.ofFormat f).suffix) (w.assembled f)) ∧
      (w.hear e view .finished).1 = w ∧
      ((w.hear e view .finished).2.2.failure = none →
        (w.hear e view .finished).2.1 = w.filed f e view.name) := by
  have hrec : w.journal.suffix ≠ ".rec" := by
    rw [h]
    cases f <;> decide
  have hwritten : ∀ name, w.writeJournal e name =
      (w, save e (w.outputPath name (Journal.ofFormat f).suffix) (w.assembled f)) := by
    intro name
    rw [writeJournal_eq hrec, render_eq h, h]
  refine ⟨hwritten _, ?_, ?_⟩
  · rw [(w.hear_eq e view .finished).1, attend_finished, writeJournal_eq hrec]
  · simp only [hear, hwritten]
    split
    · rename_i hfail
      intro (hnone : (save e _ _).2.failure = none)
      rw [hnone] at hfail
      simp at hfail
    · intro _
      cases f with
      | text =>
        obtain ⟨states, hj⟩ := Journal.hasFormat_text.mp h
        rw [writeLegend, hj, filed]
      | dot =>
        obtain ⟨cursor, states, edges, hj⟩ := Journal.hasFormat_dot.mp h
        rw [writeLegend, hj, filed]

/-- In a session of a writer of text or of graphs, what has been written up to one moment is the
beginning of what will have been written at any later one: the labels of the registry, the entries of
the header and the lines of states of a text, the nodes and edges of a graph, and the rows of the
legend. The text of the journal is assembled of these. An index that is recorded for a state is that
of a label from then on; the label stays at the index, and so do its entry in the header and its row
in the legend, which has the colour that stands for the index in a node. At a limit and at the end
the writer stays the same, whatever becomes of the files it writes.

**Proof sketch.** No notice takes anything back, `grows_hear`, and what is recorded is bounded by the
labels, `bounded_hear`. -/
theorem output_grows {ps : List P} {f : OutputFormat} {dir : Path} {w₁ w₂ : Writer P}
    (h₁ : Relation.ReflTransGen Hears (new ps (.ofFormat f) dir) w₁)
    (h₂ : Relation.ReflTransGen Hears w₁ w₂) :
    w₁.tally.registry.labels <+: w₂.tally.registry.labels ∧
      w₁.headerEntries <+: w₂.headerEntries ∧ w₁.stateLines <+: w₂.stateLines ∧
      w₁.nodeLines <+: w₂.nodeLines ∧ w₁.edgeLines <+: w₂.edgeLines ∧
      w₁.legendRows <+: w₂.legendRows ∧
      w₁.render = w₁.assembled f ∧ w₂.render = w₂.assembled f ∧
      (∀ r ∈ w₁.journal.states, r ∈ w₂.journal.states ∧
        ∀ i ∈ r.indices, i < w₁.tally.registry.count ∧ ∃ l,
          w₁.tally.registry.labels[i]? = some l ∧ w₂.tally.registry.labels[i]? = some l ∧
          w₁.headerEntries[i]? = some (Journal.entry i l) ∧
          w₂.headerEntries[i]? = some (Journal.entry i l) ∧
          w₂.legendRows[i]? = some (Legend.row (Color.text i) l.description)) ∧
      ∀ e view,
        w₁.hear e view .constraintHit =
          (w₁, save e (w₁.outputPath (view.name ++ "_" ++ view.constraint.getD "None")
            (Journal.ofFormat f).suffix) (w₁.assembled f)) ∧
        (w₁.hear e view .finished).1 = w₁ ∧
        ((w₁.hear e view .finished).2.2.failure = none →
          (w₁.hear e view .finished).2.1 = w₁.filed f e view.name) := by
  have hg := grows_session h₂
  have hbounded := bounded_session (bounded_new ps f dir) h₁
  have hkind : w₁.journal.HasFormat f := (grows_session h₁).journal.suffix
  obtain ⟨hheader, hlines, hnodes, hedges, hrows⟩ := hg.output
  refine ⟨hg.registry, hheader, hlines, hnodes, hedges, hrows, render_eq hkind,
    render_eq (hg.journal.suffix.trans hkind), fun r hr => ⟨?_, fun i hi => ?_⟩,
    hear_written hkind⟩
  · exact Array.mem_toList_iff.mp (hg.journal.states.subset (Array.mem_toList_iff.mpr hr))
  · have hlt := hbounded.records r hr i hi
    have hl := List.getElem?_eq_getElem hlt
    have hl' := List.prefix_iff_getElem?.mp hg.registry i hlt
    exact ⟨hlt, _, hl, hl', (output_of_label hl).1, (output_of_label hl').1,
      (output_of_label hl').2⟩

/-! ## A file that cannot be written -/

/-- What a writer is told of the coins. -/
def coinsView (id : Int) (isEnd : Bool) : View :=
  ⟨"coins", id, true, isEnd, 1, some "depth", none, .empty⟩

/-- A directory stands where the graph is to be written. -/
def blocked : Surroundings := ⟨⟨[(["coins_depth.dot"], .directory)], []⟩, #[]⟩

/-- A writer that has labelled the state before the first boundary. -/
def startedWriter : Writer Provider :=
  ((new [.initial true, .final] (.ofFormat .dot) ⟨"", []⟩).hear .empty (coinsView (-1) false)
    .started).1

/-- The same writer after its graph could not be written, and after a new state. -/
def advancedWriter : Writer Provider :=
  ((startedWriter.hear blocked (coinsView 0 true) .constraintHit).1.hear .empty (coinsView 0 true)
    .advanced).1

/-- Where the graph is to be written. -/
def blockedPath : Path := startedWriter.outputPath ("coins" ++ "_" ++ "depth") ".dot"

/-- A graph that is to be written where a directory stands ends the search. -/
lemma terminate_blocked (content : String) :
    (save blocked blockedPath content).2.terminate = true := by
  have hnull : blockedPath.hasNull = false := by decide +kernel
  rw [save, hnull]
  rfl

/-- The graph of the coins cannot be written at a limit; the label of the state before the first
boundary keeps its index. -/
theorem output_grows_coins :
    (startedWriter.hear blocked (coinsView 0 true) .constraintHit).2.2.terminate = true ∧
    startedWriter.tally.registry.labels = [⟨"init", "initial"⟩] ∧
    advancedWriter.tally.registry.labels = [⟨"init", "initial"⟩, ⟨"end", "end"⟩] ∧
    startedWriter.legendRows <+: advancedWriter.legendRows ∧
    ∀ r ∈ startedWriter.journal.states, r ∈ advancedWriter.journal.states ∧
      ∀ i ∈ r.indices, ∃ l, advancedWriter.tally.registry.labels[i]? = some l ∧
        advancedWriter.headerEntries[i]? = some (Journal.entry i l) := by
  have h₁ : Relation.ReflTransGen Hears (new [.initial true, .final] (.ofFormat .dot) ⟨"", []⟩)
      startedWriter := .single ⟨.empty, coinsView (-1) false, .started, rfl⟩
  have h₂ : Relation.ReflTransGen Hears startedWriter advancedWriter :=
    .tail (.single ⟨blocked, coinsView 0 true, .constraintHit, rfl⟩)
      ⟨.empty, coinsView 0 true, .advanced, rfl⟩
  obtain ⟨-, -, -, -, -, hrows, -, -, hrecords, hwritten⟩ := output_grows h₁ h₂
  refine ⟨?_, by decide +kernel, by decide +kernel, hrows, fun r hr => ?_⟩
  · rw [(hwritten blocked (coinsView 0 true)).1]
    exact terminate_blocked (startedWriter.assembled .dot)
  · obtain ⟨hr', hindices⟩ := hrecords r hr
    refine ⟨hr', fun i hi => ?_⟩
    obtain ⟨-, l, -, hl, -, hentry, -⟩ := hindices i hi
    exact ⟨l, hl, hentry⟩

end Writer

end StateAtlas
