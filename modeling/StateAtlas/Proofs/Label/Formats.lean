import StateAtlas.Proofs.Label.Legend
import StateAtlas.Proofs.Label.Readback
import StateAtlas.Run

set_option autoImplicit false

/-!
# The two formats

A writer of text and a writer of graphs with the same providers gather the same labels for the same
states, so that the lines of the one and the nodes of the other tell the same. A provider is asked
by each writer for itself, but it is asked the same, and what else the listeners of a search do is
nothing to it.

## Main definitions

* `StateAtlas.Lab.stateLines`, `StateAtlas.Dot.nodeLines` — the lines of states in a text, and of
  nodes in a graph.
* `StateAtlas.Writer.Twins` — writers of text and of graphs that have recorded the same.

## Main results

* `StateAtlas.Dot.nodeLines_render` — the nodes of a graph are those of the recorded states.
* `StateAtlas.Writer.twins_heard` — writers stay twins, whatever they hear.
* `StateAtlas.Exploration.formats_agree` — the two formats agree at every moment of a search.
-/

namespace StateAtlas

/-! ## Lines -/

/-- A line begins with the number of a state and a mark. -/
def LineOf (mark : Char) (id : Int) (line : String) : Prop :=
  (toString id).toList ++ [mark] <+: line.toList

/-- A line that begins with the number of a state and a mark begins with no other one and that
mark. -/
lemma eq_of_lineOf {mark : Char} (hd : mark.isDigit = false) (hs : mark ≠ '-') {i j : Int}
    {line : String} (hi : LineOf mark i line) (hj : LineOf mark j line) : i = j := by
  have piece : ∀ {i : Int}, LineOf mark i line →
      (splitChars mark line.toList).head? = some (toString i).toList := by
    rintro i ⟨rest, h⟩
    rw [← h, List.append_assoc, List.singleton_append,
      splitChars_append (notMem_toString_int hd hs i)]
    rfl
  have heq : (toString i).toList = (toString j).toList :=
    Option.some.inj ((piece hi).symm.trans (piece hj))
  have hid := congrArg (fun cs => Lab.readId? (String.ofList cs)) heq
  simpa only [String.ofList_toList, Lab.readId?_toString, Option.some.injEq] using hid

/-- The states for which there is a line, if each line begins with the number of its state. -/
lemma exists_lineOf_iff {mark : Char} (hd : mark.isDigit = false) (hs : mark ≠ '-')
    {line : LabeledState → String} (h : ∀ s, LineOf mark s.id (line s)) {states : List LabeledState}
    {id : Int} :
    (∃ l ∈ states.map line, LineOf mark id l) ↔ ∃ s ∈ states, s.id = id := by
  constructor
  · rintro ⟨l, hl, hid⟩
    obtain ⟨s, hmem, rfl⟩ := List.mem_map.mp hl
    exact ⟨s, hmem, eq_of_lineOf hd hs (h s) hid⟩
  · rintro ⟨s, hmem, rfl⟩
    exact ⟨line s, List.mem_map_of_mem hmem, h s⟩

namespace Lab

/-- The lines of states in a text. -/
def stateLines (text : String) : List String := (splitText '\n' text).tail.dropLast

/-- The lines of a text are those of the recorded states. -/
lemma stateLines_render {states : Array LabeledState} {labels : List Label}
    (h : ∀ l ∈ labels, '\n' ∉ l.name.toList) :
    stateLines ((Journal.text states).render labels) = states.toList.map stateLine := by
  rw [stateLines, splitText_render h, List.tail_cons, List.dropLast_concat]

lemma lineOf_stateLine (s : LabeledState) : LineOf ':' s.id (stateLine s) := by
  refine ⟨' ' :: blanked s.indices, ?_⟩
  rw [stateLine, String.toList_ofList, body, List.append_assoc, List.singleton_append]

end Lab

/-! ## Nodes -/

namespace Dot

/-- The lines of nodes in the text of a graph: those behind the two lines of its head that have an
opening bracket. -/
def nodeLines (text : String) : List String :=
  ((splitText '\n' text).drop 2).filter fun line => line.toList.contains '['

/-- The first two lines of a graph. -/
def head : List String :=
  ["digraph statespace \x7b", "node [colorscheme=\"" ++ Color.scheme ++ "\" style=wedged]"]

/-- The line of a node as a text, without the line break. -/
def nodeLine (s : LabeledState) : String := String.ofList s.node.toList.dropLast

/-- The line of an edge, without the line break. -/
def edgeLine (e : Int × Int) : String := toString e.1 ++ " -> " ++ toString e.2

/-- Colours with colons between them contain no line break if they contain none. -/
lemma notMem_intercalate {colors : List String} (h : ∀ c ∈ colors, '\n' ∉ c.toList) :
    '\n' ∉ (String.intercalate ":" colors).toList := by
  rw [String.toList_intercalate]
  induction colors with
  | nil => simp
  | cons c cs ih =>
    obtain ⟨hc, hcs⟩ := List.forall_mem_cons.mp h
    cases cs with
    | nil => simpa using hc
    | cons d ds =>
      have ih := ih hcs
      rw [List.map_cons, List.map_cons, List.intercalate_cons_cons]
      rw [List.map_cons] at ih
      simp only [List.mem_append, not_or]
      exact ⟨⟨hc, by decide⟩, ih⟩

/-- A node begins with the number of its state and a bracket, and there is no line break in it but
at its end. -/
lemma toList_node (s : LabeledState) : ∃ attributes, '\n' ∉ attributes ∧
    s.node.toList = (toString s.id).toList ++ ' ' :: '[' :: (attributes ++ ['\n']) := by
  have hcolors : ∀ c ∈ s.indices.map Color.text, '\n' ∉ c.toList := by
    intro c hc
    obtain ⟨i, -, rfl⟩ := List.mem_map.mp hc
    exact Color.notMem_text (by decide) (by decide) i
  unfold LabeledState.node
  split
  · rename_i color h
    have hcolor := hcolors color (by rw [h]; exact List.mem_singleton_self color)
    refine ⟨"style=filled fillcolor=".toList ++ color.toList ++ [']'], ?_, by simp⟩
    simp only [List.mem_append, hcolor, not_or]
    decide
  · have hjoined := notMem_intercalate hcolors
    refine ⟨"fillcolor=\"".toList ++ (String.intercalate ":" (s.indices.map Color.text)).toList ++
      ['"', ']'], ?_, by simp only [String.toList_append]; simp⟩
    simp only [List.mem_append, hjoined, not_or]
    decide

/-- The line of a node begins with the number of its state and a bracket, and has no line break. -/
lemma toList_nodeLine (s : LabeledState) : ∃ attributes, '\n' ∉ attributes ∧
    (nodeLine s).toList = (toString s.id).toList ++ ' ' :: '[' :: attributes ∧
    s.node = nodeLine s ++ "\n" := by
  obtain ⟨attributes, hattributes, h⟩ := toList_node s
  have hline : (nodeLine s).toList = (toString s.id).toList ++ ' ' :: '[' :: attributes := by
    rw [nodeLine, String.toList_ofList, h, ← List.cons_append, ← List.cons_append,
      ← List.append_assoc, List.dropLast_concat]
  refine ⟨attributes, hattributes, hline, ?_⟩
  rw [← String.toList_inj, h, String.toList_append, hline]
  simp

lemma lineOf_nodeLine (s : LabeledState) : LineOf ' ' s.id (nodeLine s) := by
  obtain ⟨attributes, -, h, -⟩ := toList_nodeLine s
  exact ⟨'[' :: attributes, by rw [h, List.append_assoc, List.singleton_append]⟩

/-- The nodes of a graph are those of the recorded states. -/
lemma nodeLines_render (cursor : Int) (states : Array LabeledState) (edges : Array (Int × Int))
    (labels : List Label) :
    nodeLines ((Journal.graph cursor states edges).render labels) =
      states.toList.map nodeLine := by
  have hnodes : states.toList.map LabeledState.node =
      (states.toList.map nodeLine).map (· ++ "\n") := by
    rw [List.map_map]
    refine List.map_congr_left fun s _ => ?_
    obtain ⟨-, -, -, h⟩ := toList_nodeLine s
    exact h
  have hedges : edges.toList.map edgeText = (edges.toList.map edgeLine).map (· ++ "\n") := by
    rw [List.map_map]
    rfl
  have hrender : (Journal.graph cursor states edges).render labels = "digraph statespace \x7b\n" ++
      "node [colorscheme=\"" ++ Color.scheme ++ "\" style=wedged]\n" ++
      String.join (states.toList.map LabeledState.node) ++
      String.join (edges.toList.map edgeText) ++ "\x7d\n" := rfl
  have htext : (Journal.graph cursor states edges).render labels =
      String.join (head.map (· ++ "\n")) ++
        (String.join ((states.toList.map nodeLine).map (· ++ "\n")) ++
          (String.join ((edges.toList.map edgeLine).map (· ++ "\n")) ++
            (String.join (["\x7d"].map (· ++ "\n")) ++ ""))) := by
    rw [hrender, hnodes, hedges, ← String.toList_inj]
    simp [head]
  have hnode : ∀ line ∈ states.toList.map nodeLine, '\n' ∉ line.toList ∧ '[' ∈ line.toList := by
    intro line hline
    obtain ⟨s, -, rfl⟩ := List.mem_map.mp hline
    obtain ⟨attributes, hattributes, h, -⟩ := toList_nodeLine s
    have hid : '\n' ∉ s.id.repr.toList := notMem_toString_int (by decide) (by decide) s.id
    rw [h]
    simp [hattributes, hid]
  have hedge : ∀ line ∈ edges.toList.map edgeLine, '\n' ∉ line.toList ∧ '[' ∉ line.toList := by
    intro line hline
    obtain ⟨e, -, rfl⟩ := List.mem_map.mp hline
    have hbreak : ∀ i : Int, '\n' ∉ i.repr.toList := notMem_toString_int (by decide) (by decide)
    have hbracket : ∀ i : Int, '[' ∉ i.repr.toList := notMem_toString_int (by decide) (by decide)
    simp [edgeLine, hbreak, hbracket]
  rw [nodeLines, htext, splitText_lines (by decide), splitText_lines fun l hl => (hnode l hl).1,
    splitText_lines fun l hl => (hedge l hl).1, splitText_lines (by decide), splitText_empty]
  have hdrop : ∀ lines : List String, (head ++ lines).drop 2 = lines := fun _ => rfl
  have hkept : (states.toList.map nodeLine).filter (fun line => line.toList.contains '[') =
      states.toList.map nodeLine :=
    List.filter_eq_self.mpr fun line hline => by simpa using (hnode line hline).2
  have hleft : (edges.toList.map edgeLine).filter (fun line => line.toList.contains '[') = [] :=
    List.filter_eq_nil_iff.mpr fun line hline => by simpa using (hedge line hline).2
  have hlast : (["\x7d"] ++ [""]).filter (fun line => line.toList.contains '[') = [] := by decide
  rw [hdrop, List.filter_append, List.filter_append, hkept, hleft, hlast, List.append_nil,
    List.append_nil]

end Dot

/-! ## Twins -/

namespace Writer

variable {P : Type}

/-- A writer of text and a writer of graphs have asked the same providers for the same, have met the
same labels and have recorded the same states. -/
structure Twins (t g : Writer P) : Prop where
  providers : g.providers = t.providers
  tally : g.tally = t.tally
  journals : ∃ states cursor edges,
    t.journal = .text states ∧ g.journal = .graph cursor states edges

variable {t g : Writer P}

lemma twins_new (ps : List P) (dir : Path) :
    Twins (new ps (.ofFormat .text) dir) (new ps (.ofFormat .dot) dir) :=
  ⟨rfl, rfl, #[], -1, #[], rfl, rfl⟩

/-- A boundary adds an edge to the graph and nothing to the text. -/
lemma Twins.advance (h : Twins t g) (id : Int) :
    Twins { t with journal := t.journal.advance id }
      { g with journal := g.journal.advance id } := by
  obtain ⟨states, cursor, edges, ht, hg⟩ := h.journals
  refine ⟨h.providers, h.tally, states, id, edges.push (cursor, id), ?_, ?_⟩
  · rw [ht]
    rfl
  · rw [hg]
    rfl

/-- A move shifts the cursor of the graph. -/
lemma Twins.move (h : Twins t g) (id : Int) :
    Twins { t with journal := t.journal.move id } { g with journal := g.journal.move id } := by
  obtain ⟨states, cursor, edges, ht, hg⟩ := h.journals
  refine ⟨h.providers, h.tally, states, id, edges, ?_, ?_⟩
  · rw [ht]
    rfl
  · rw [hg]
    rfl

/-- Twins do not change when their journals are written. -/
lemma Twins.written (h : Twins t g) (e : Surroundings) (name : String) :
    Twins (t.writeJournal e name).1 (g.writeJournal e name).1 := by
  obtain ⟨states, cursor, edges, ht, hg⟩ := h.journals
  have htext : (t.writeJournal e name).1 = t := by simp [writeJournal, ht]
  have hgraph : (g.writeJournal e name).1 = g := by simp [writeJournal, hg]
  rw [htext, hgraph]
  exact h

variable [LabelProvider P]

/-- Twins ask for the labels of a state in the same way, and record the same. -/
lemma Twins.labelState (h : Twins t g) (view : View) (id : Int) :
    Twins (t.labelState view id).1 (g.labelState view id).1 ∧
      (g.labelState view id).2 = (t.labelState view id).2 := by
  obtain ⟨states, cursor, edges, ht, hg⟩ := h.journals
  simp only [Writer.labelState, h.tally, h.providers]
  split
  · exact ⟨⟨rfl, rfl, states, cursor, edges, ht, hg⟩, rfl⟩
  · rename_i qs tally hask
    refine ⟨⟨rfl, rfl, ?_⟩, rfl⟩
    rw [ht, hg]
    by_cases hnone : tally.current = []
    · exact ⟨states, cursor, edges, by simp [Journal.label, hnone], by simp [Journal.label, hnone]⟩
    · exact ⟨_, cursor, edges, by simp [Journal.label, hnone]; rfl, by simp [Journal.label, hnone]⟩

/-- Twins stay twins at every delivery.

**Proof sketch.** One case for each notice; both are asked the same. -/
lemma Twins.attend (h : Twins t g) (d : Delivery) : Twins (t.attend d) (g.attend d) := by
  obtain ⟨view, n⟩ := d
  simp only [Writer.attend]
  cases n with
  | started =>
    have hclear : Twins { t with tally := t.tally.clear } { g with tally := g.tally.clear } :=
      ⟨h.providers, by rw [h.tally], h.journals⟩
    exact (hclear.labelState view (-1)).1
  | advanced =>
    by_cases hnew : view.isNew = true
    · obtain ⟨hlabel, hfault⟩ := h.labelState view view.stateId
      simp only [hear_advanced hnew, hfault]
      split
      · exact hlabel.advance view.stateId
      · exact hlabel
    · simp only [hear, if_neg hnew]
      exact h.advance view.stateId
  | backtracked | restored => exact h.move view.stateId
  | executing i =>
    refine ⟨?_, h.tally, h.journals⟩
    simp only [hear, h.providers]
  | executed i next =>
    simp only [hear, h.providers, h.tally]
    split <;> exact ⟨rfl, rfl, h.journals⟩
  | constraintHit => exact h.written _ _
  | finished =>
    have hwritten := h.written .empty view.name
    rwa [← attend_finished, ← attend_finished] at hwritten

/-- Twins stay twins, whatever they hear. -/
theorem twins_heard (h : Twins t g) (log : Log) : Twins (t.heard log) (g.heard log) := by
  induction log with
  | nil => exact h
  | cons d log ih => exact ih.attend d

end Writer

/-! ## Writers of a configuration -/

namespace Provider

/-- A provider that is created has been given some targets. -/
lemma exists_of_create {config : Config} {k : ProviderKind} {p : Provider}
    (h : create config k = .ok p) : ∃ targets, ofTargets k targets = .ok p := by
  cases k with
  | initial | final | allDifferent => exact ⟨[], by rw [← Except.ok.inj h]; rfl⟩
  | _ =>
    simp only [create] at h
    split at h
    · simp at h
    · rename_i targets _
      split at h
      · rename_i hp
        exact ⟨targets, by rw [hp, Except.ok.inj h]⟩
      · simp at h

/-- The providers of a configuration are configured. -/
lemma configured_of_createAll {config : Config} {ps : List Provider} {reports : List LogRecord}
    (h : createAll config = .ok (ps, reports)) : ∀ p ∈ ps, p.Configured := by
  have named : ∀ {name p}, ofName config name = .ok p → p.Configured := by
    intro name p hp
    rw [ofName] at hp
    split at hp
    · rename_i k _
      obtain ⟨targets, hk⟩ := exists_of_create hp
      exact configured_of_ofTargets hk
    · simp at hp
  have all : ∀ (names : List String) {ps rs}, createNamed config names = .ok (ps, rs) →
      ∀ p ∈ ps, p.Configured := by
    intro names
    induction names with
    | nil =>
      intro ps rs hps
      obtain ⟨rfl, -⟩ := Prod.mk.inj (Except.ok.inj hps)
      simp
    | cons name names ih =>
      intro ps rs hps
      rw [createNamed] at hps
      split at hps
      · rename_i p hp
        split at hps
        · rename_i qs qrs hrest
          obtain ⟨rfl, -⟩ := Prod.mk.inj (Except.ok.inj hps)
          exact List.forall_mem_cons.mpr ⟨named hp, ih hrest⟩
        · simp at hps
      · split at hps
        · rename_i hrest
          obtain ⟨rfl, -⟩ := Prod.mk.inj (Except.ok.inj hps)
          exact ih hrest
        · simp at hps
      · simp at hps
  rw [createAll] at h
  split at h
  · exact all _ h
  · simp at h

end Provider

/-- A writer of a configuration is new, and has the providers of the configuration. -/
lemma RunSetup.writer_eq {config : Config} {format : OutputFormat} {w : Writer Provider}
    {reports : List LogRecord} (h : writer config format = .ok (w, reports)) :
    ∃ ps dir, Provider.createAll config = .ok (ps, reports) ∧ config.outputDir = .ok dir ∧
      w = .new ps (.ofFormat format) dir := by
  rw [writer] at h
  split at h
  · simp at h
  · rename_i ps rs hps
    split at h
    · simp at h
    · rename_i dir hdir
      obtain ⟨rfl, rfl⟩ := Prod.mk.inj (Except.ok.inj h)
      exact ⟨ps, dir, hps, hdir, rfl⟩

/-! ## Searches -/

namespace Exploration

variable {σ L κ : Type} [DecidableEq κ] {Q : Program σ κ} {A : Audience L}
  {seat₁ seat₂ : L → Option (Writer Provider)} {name : String} {depthLimit maxStates : Option Int}
  {outside : Scene} {l₀ : L}

/-- The two formats agree at every moment of a search at which a delivery has been completed. Both
writers have taken all deliveries, and they have met the same labels, which have the same indices.
There are states with labels, whose indices ascend, that both have recorded, and the nodes of the
graph are those of these states, in the same order; the colours of a node are those of its indices.
The lines of the text are those of these states as well, and a state has a line in the one if and
only if it has a node in the other, if there is no line break in the texts that integers have by
themselves, where the providers write them.

The text of a named constant may forge a line, see `forged_line`.

**Proof sketch.** The writers are twins, `twins_heard`, so that both have recorded the same states,
and the text is legible, `legible_of_worded`. Lines and nodes are found again in the texts,
`stateLines_render` and `nodeLines_render`. -/
theorem formats_agree {config : Config} {w₁ w₂ : Writer Provider} {reports₁ reports₂ : List LogRecord}
    (hw₁ : RunSetup.writer config .text = .ok (w₁, reports₁))
    (hw₂ : RunSetup.writer config .dot = .ok (w₂, reports₂))
    (hA₁ : A.Seats seat₁) (hA₂ : A.Seats seat₂) (h₁ : seat₁ l₀ = some w₁) (h₂ : seat₂ l₀ = some w₂)
    {n : Nat} {y : Exploration σ (L × Log) κ}
    (hy : y = after Q A.recorded n (fresh name depthLimit maxStates outside l₀))
    {log : Log} (hlog : log <:+ y.search.listeners.2)
    (hlast : y.search.listeners.2 = log → y.stage.Sound) :
    w₁.Takes log ∧ w₂.Takes log ∧
      (y.search.listeners.2 = log → seat₁ y.search.listeners.1 = some (w₁.heard log) ∧
        seat₂ y.search.listeners.1 = some (w₂.heard log)) ∧
      (w₁.heard log).tally.registry = (w₂.heard log).tally.registry ∧
      ∃ states : List LabeledState,
        (w₁.heard log).journal.states.toList = states ∧
        (w₂.heard log).journal.states.toList = states ∧
        (Dot.nodeLines (w₂.heard log).render).map (· ++ "\n") = states.map LabeledState.node ∧
        (∀ s ∈ states, s.indices ≠ [] ∧ s.indices.Pairwise (· < ·)) ∧
        ((∀ p ∈ w₁.providers, ∀ d ∈ log, p.Worded (· ≠ '\n') d) →
          (Lab.stateLines (w₁.heard log).render).map (· ++ "\n") = states.map LabeledState.line ∧
          ∀ id : Int, (∃ line ∈ Lab.stateLines (w₁.heard log).render, LineOf ':' id line) ↔
            ∃ line ∈ Dot.nodeLines (w₂.heard log).render, LineOf ' ' id line) := by
  obtain ⟨ps, dir, hps, hdir, rfl⟩ := RunSetup.writer_eq hw₁
  obtain ⟨ps', dir', hps', hdir', rfl⟩ := RunSetup.writer_eq hw₂
  obtain ⟨rfl, -⟩ := Prod.mk.inj (Except.ok.inj (hps.symm.trans hps'))
  obtain rfl := Except.ok.inj (hdir.symm.trans hdir')
  subst hy
  obtain ⟨taken₁, v₁, hp₁⟩ := taken_after hA₁ h₁ (le_refl n) hlog hlast
  obtain ⟨taken₂, v₂, hp₂⟩ := taken_after hA₂ h₂ (le_refl n) hlog hlast
  have htwins := Writer.twins_heard (Writer.twins_new ps dir) log
  have hconfigured := Provider.configured_of_createAll hps
  have hanything : ∀ c, isLabelChar c = true → (fun _ => True) c := fun _ _ => trivial
  obtain ⟨_, hlegible⟩ := Writer.legible_of_worded hanything dir hconfigured
    fun p _ d (_ : d ∈ log) => p.worded_of_forall (fun _ => trivial) d
  obtain ⟨states, cursor, edges, ht, hg⟩ := htwins.journals
  have hnodes : Dot.nodeLines ((Writer.new ps (.ofFormat .dot) dir).heard log).render =
      states.toList.map Dot.nodeLine := by
    rw [Writer.render, hg, Dot.nodeLines_render]
  refine ⟨hp₁.takes.of_suffix hp₁.based, hp₂.takes.of_suffix hp₂.based, fun heq => ?_,
    by rw [htwins.tally], states.toList, by rw [ht]; rfl, by rw [hg]; rfl, ?_, fun s hs => ?_,
    fun hworded => ?_⟩
  · obtain ⟨hb, ho⟩ := phase_of_sound (hlast heq)
    obtain ⟨htaken₁, rfl⟩ := hp₁.exact hb ho
    obtain ⟨htaken₂, rfl⟩ := hp₂.exact hb ho
    obtain rfl := heq.symm.trans htaken₁
    obtain rfl := heq.symm.trans htaken₂
    exact ⟨hp₁.seated, hp₂.seated⟩
  · rw [hnodes, List.map_map]
    refine List.map_congr_left fun s _ => ?_
    obtain ⟨-, -, -, h⟩ := Dot.toList_nodeLine s
    exact h.symm
  · have hs : s ∈ ((Writer.new ps (.ofFormat .text) dir).heard log).journal.states := by
      rw [ht]
      exact Array.mem_toList_iff.mp hs
    obtain ⟨hne, hasc, -⟩ := hlegible.records s hs
    exact ⟨hne, hasc⟩
  · have hbreak : ∀ c, isLabelChar c = true → c ≠ '\n' := by
      rintro c hc rfl
      simp [isLabelChar] at hc
    obtain ⟨_, hworded⟩ := Writer.legible_of_worded hbreak dir hconfigured hworded
    have hlines : Lab.stateLines ((Writer.new ps (.ofFormat .text) dir).heard log).render =
        states.toList.map Lab.stateLine := by
      rw [Writer.render, ht]
      exact Lab.stateLines_render fun l hl hc => (hworded.tally.proper l hl).chars _ hc rfl
    refine ⟨?_, fun id => ?_⟩
    · rw [hlines, List.map_map]
      exact List.map_congr_left fun s _ => (Lab.line_eq s).symm
    · rw [hlines, hnodes, exists_lineOf_iff (by decide) (by decide) Lab.lineOf_stateLine,
        exists_lineOf_iff (by decide) (by decide) Dot.lineOf_nodeLine]

/-! ## Two coins in both formats -/

/-- A configuration with two providers. -/
def bothConfig : Config := ⟨.ofList [("label.class", .str "Initial;AllDifferent")]⟩

/-- A writer of this configuration. -/
def bothWriter (format : OutputFormat) : Writer Provider :=
  .new [.initial true, .allDifferent 0] (.ofFormat format) (Path.ofText ".")

/-- The search through the throws of two coins with two writers. -/
def coinsTwice : Exploration (Nat × Nat) (Listeners Provider × Log) (Nat × Nat) :=
  after coins Listeners.audience.recorded 16
    (fresh "coins" none none .empty
      ⟨[.writer (bothWriter .text), .writer (bothWriter .dot)], .empty⟩)

/-- The two formats agree on the coins. -/
theorem formats_agree_coins :
    RunSetup.writer bothConfig .text = .ok (bothWriter .text, []) ∧
    RunSetup.writer bothConfig .dot = .ok (bothWriter .dot, []) ∧ coinsTwice.stage.Sound ∧
    Listeners.seat 0 coinsTwice.search.listeners.1 =
      some ((bothWriter .text).heard coinsTwice.search.listeners.2) ∧
    Listeners.seat 1 coinsTwice.search.listeners.1 =
      some ((bothWriter .dot).heard coinsTwice.search.listeners.2) ∧
    ∃ states : List LabeledState,
      (Lab.stateLines ((bothWriter .text).heard coinsTwice.search.listeners.2).render).map
        (· ++ "\n") = states.map LabeledState.line ∧
      (Dot.nodeLines ((bothWriter .dot).heard coinsTwice.search.listeners.2).render).map
        (· ++ "\n") = states.map LabeledState.node := by
  have hs : coinsTwice.stage.Sound := by decide +kernel
  have hworded : ∀ p ∈ (bothWriter .text).providers, ∀ d ∈ coinsTwice.search.listeners.2,
      p.Worded (· ≠ '\n') d := by
    intro p hp d _
    rcases List.mem_pair.mp hp with rfl | rfl <;> exact ⟨fun _ _ => trivial, fun _ _ _ => trivial⟩
  obtain ⟨-, -, hseats, -, states, -, -, hnodes, -, hlines⟩ :=
    formats_agree (rfl : RunSetup.writer bothConfig .text = _)
      (rfl : RunSetup.writer bothConfig .dot = _) (Listeners.seats_audience 0)
      (Listeners.seats_audience 1) rfl rfl (rfl : coinsTwice = _) (List.suffix_refl _) fun _ => hs
  obtain ⟨h₁, h₂⟩ := hseats rfl
  exact ⟨rfl, rfl, hs, h₁, h₂, states, (hlines hworded).1, hnodes⟩

/-! ## A line that tells of no state -/

/-- The program that makes a constant, the text of which has the form of a line:
`from re._constants import _NamedIntConstant as __make__` and `level = __make__(1, '1" \n7: 0\n')`. -/
def forging : CodeProgram :=
  .ofSteps "prog" []
    (CodeProgram.importSteps "re._constants" "_NamedIntConstant" "__make__" ++
     [⟨14, "PUSH_NULL", .absent, .pushNull⟩,
      ⟨16, "LOAD_NAME", .text "__make__", .loadName "__make__"⟩,
      ⟨18, "LOAD_CONST", .constant (.int 1), .loadConstant (.int 1)⟩,
      ⟨20, "LOAD_CONST", .constant (.str "1\" \n7: 0\n"), .loadConstant (.str "1\" \n7: 0\n")⟩,
      ⟨22, "PRECALL", .number 2, .idle⟩,
      ⟨26, "CALL", .number 2, .call 2⟩,
      ⟨36, "STORE_NAME", .text "level", .storeName "level"⟩] ++ CodeProgram.leaveSteps 38)

/-- A configuration of a provider for the constant. -/
def forgedConfig : Config :=
  ⟨.ofList [("label.class", .str "IntegerStaticField"),
    ("label.IntegerStaticField.field", .str "prog.level")]⟩

/-- A writer of this configuration. -/
def forgedWriter (format : OutputFormat) : Writer Provider :=
  .new [watching "level"] (.ofFormat format) (Path.ofText ".")

/-- The search of `forging` with two writers. -/
def forgingAfter (n : Nat) : Exploration Process (Listeners Provider × Log) (List Frozen.Mark) :=
  after forging.program Listeners.audience.recorded n
    (fresh "prog" none none ⟨.empty, .empty, #[]⟩
      ⟨[.writer (forgedWriter .text), .writer (forgedWriter .dot)], .empty⟩)

/-- A state has a line in the text that has no node in the graph: the text of the constant stands in
the name of a label as it is. -/
theorem forged_line :
    RunSetup.writer forgedConfig .text = .ok (forgedWriter .text, []) ∧
    RunSetup.writer forgedConfig .dot = .ok (forgedWriter .dot, []) ∧
    (forgingAfter 40).stage.Sound ∧
    ∃ w₁ w₂, Listeners.seat 0 (forgingAfter 40).search.listeners.1 = some w₁ ∧
      Listeners.seat 1 (forgingAfter 40).search.listeners.1 = some w₂ ∧
      (∃ line ∈ Lab.stateLines w₁.render, LineOf ':' 7 line) ∧
      ¬∃ line ∈ Dot.nodeLines w₂.render, LineOf ' ' 7 line := by
  have hlines : (Listeners.seat 0 (forgingAfter 40).search.listeners.1).map
      (fun w => Lab.stateLines w.render) = some ["7: 0", "__prog_level\" ", "0: 0", "1: 0"] := by
    decide +kernel
  have hnodes : (Listeners.seat 1 (forgingAfter 40).search.listeners.1).map
      (fun w => Dot.nodeLines w.render) =
        some ["0 [style=filled fillcolor=1]", "1 [style=filled fillcolor=1]"] := by
    decide +kernel
  obtain ⟨w₁, hw₁, hlines⟩ := Option.map_eq_some_iff.mp hlines
  obtain ⟨w₂, hw₂, hnodes⟩ := Option.map_eq_some_iff.mp hnodes
  refine ⟨rfl, rfl, by decide +kernel, w₁, w₂, hw₁, hw₂, ⟨"7: 0", by simp [hlines], ?_⟩, ?_⟩
  · exact (by decide +kernel : (toString (7 : Int)).toList ++ [':'] <+: "7: 0".toList)
  · rw [hnodes]
    exact (by decide +kernel : ¬∃ line ∈ ["0 [style=filled fillcolor=1]",
      "1 [style=filled fillcolor=1]"], (toString (7 : Int)).toList ++ [' '] <+: line.toList)

end Exploration

end StateAtlas
