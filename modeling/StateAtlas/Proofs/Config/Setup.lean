import StateAtlas.CommandLine.Run
import StateAtlas.Proofs.Config.Answer

set_option autoImplicit false

/-!
# Setting up a run

A command loads a configuration, replaces some of its keys, makes the writers with their providers
and reads the limits of the search. It ends with a message where the configuration cannot be used.
Found here is when it does: never for another reason if the recognised keys hold data of the kinds
that are converted. This is so whatever makes data of the bytes of the file.

## Main definitions

* `StateAtlas.Config.Workable` — the recognised keys of a configuration hold what is converted.

## Main results

* `StateAtlas.Workplace.setup_answers` — when each step answers, and what the command makes of it.
* `StateAtlas.Workplace.output_directory_unanswered` — a configuration that cannot be used and is
  not answered.
-/

namespace StateAtlas

namespace Config

/-- The recognised keys of a configuration hold what is converted. -/
structure Workable (c : Config) : Prop where
  formats : c.WritableAt "label.format"
  classes : c.WritableAt "label.class"
  targets : ∀ names, c.list "label.class" = .ok names → ∀ name ∈ names,
    ∀ k, ProviderKind.ofName name = .ok k → k.HasTargets → c.WritableAt k.targetKey
  outputDir : ∀ d, c.get? "label.output_dir" = some d → d.isVoid ∨ ∃ s, d = .str s
  depthLimit : ∀ d, c.get? "search.depth_limit" = some d → d.Countable
  maxStates : ∀ d, c.get? "search.max_states" = some d → d.Countable

end Config

namespace RunSetup

variable {c : Config}

/-- The writers of a workable configuration are made, or the directory is refused. -/
lemma answers_writer (hc : c.Workable) (format : OutputFormat) : Answers (writer c format) := by
  obtain ⟨⟨providers, reports⟩, hproviders⟩ :=
    Provider.exists_createAll_iff.mpr ⟨hc.classes, hc.targets⟩
  have hdir := Config.answers_outputDir_iff.mpr hc.outputDir
  unfold writer
  rw [hproviders]
  simp only
  split
  · exact hdir.of_eq_error ‹_›
  · exact answers_ok _

lemma answers_writersOf (hc : c.Workable) (formats : List OutputFormat) :
    Answers (writersOf c formats) := by
  induction formats with
  | nil => exact answers_ok _
  | cons format rest ih =>
    rw [writersOf]
    split
    · exact (answers_writer hc format).of_eq_error ‹_›
    · split
      · exact ih.of_eq_error ‹_›
      · exact answers_ok _

/-- The setup of a workable configuration is made, or the configuration is refused. -/
lemma answers_ofConfig (hc : c.Workable) : Answers (ofConfig c) := by
  have hformats := Config.answers_formats_iff.mpr hc.formats
  have hdepth : Answers c.depthLimit := Config.answers_integer_iff.mpr hc.depthLimit
  have hmax : Answers c.maxStates := Config.answers_integer_iff.mpr hc.maxStates
  unfold ofConfig
  split
  · exact hformats.of_eq_error ‹_›
  · rename_i formats _
    split
    · exact (answers_writersOf hc formats).of_eq_error ‹_›
    · exact hdepth.of_eq_error ‹_›
    · exact hmax.of_eq_error ‹_›
    · exact answers_ok _

end RunSetup

namespace Workplace

variable {w : Workplace} {reader : DocumentReader} {open? : Path → Except FileError ByteArray}
  {load : Path → Except Fault Config} {s : CommandSettings} {f : Fault} {reports : List LogRecord}

/-- The configuration that settings ask for is answered if its file is. -/
lemma answers_config_iff (hreader : reader.Foreign) :
    Answers (config (Config.loadBy reader open?) s) ↔
      ∀ path, s.config = some path → ∀ bytes, open? path = .ok bytes →
        Config.Readable (reader bytes) := by
  unfold config
  cases s.config with
  | none => exact iff_of_true (answers_ok _) (by simp)
  | some path =>
    simp only [Option.some.injEq, forall_eq', ← Config.answers_loadBy_iff hreader]
    cases Config.loadBy reader open? path with
    | ok c => exact iff_of_true (answers_ok _) (answers_ok _)
    | error f => exact ⟨Answers.of_error, Answers.of_error⟩

/-- A plan that is not made is refused if the configuration is answered and workable. -/
lemma refused_of_plan (h : plan load s = .error (f, reports)) (hconfig : Answers (config load s))
    (hworkable : ∀ c, config load s = .ok c → c.Workable) : ∃ cause, f = .config cause := by
  unfold plan at h
  split at h
  · rename_i hc
    obtain ⟨rfl, -⟩ := Prod.mk.inj (Except.error.inj h)
    exact hconfig _ hc
  · rename_i c hc
    have hc := hworkable c hc
    split at h
    · cases h
    · rename_i hf
      obtain ⟨rfl, -⟩ := Prod.mk.inj (Except.error.inj h)
      exact RunSetup.answers_ofConfig hc _ hf
    · rename_i hf _
      obtain ⟨rfl, -⟩ := Prod.mk.inj (Except.error.inj h)
      exact Config.answers_outputDir_iff.mpr hc.outputDir _ hf

/-- **Which configurations are answered.** Each step that sets up a run yields a result, or says
why the configuration cannot be used, exactly if the data it converts are of the kinds the
conversion is written for; a file that can be opened is answered exactly if it is malformed or has a
value in which the names of mappings can be written and no mapping contains itself. Here `reader` is
whatever makes data of the bytes of a file: all that is asked of it is that its own faults are none of
those that configurations have. A command whose files are there ends with status 3 and the message
for each refusal; only where one of these conditions fails may it be left without a status before the
program is explored.

**Proof sketch.** Each conversion is taken apart by the kinds of data; the steps hand on the faults
of the conversions. -/
theorem setup_answers (reader : DocumentReader) (hreader : reader.Foreign)
    (open? : Path → Except FileError ByteArray) (c : Config) (w : Workplace)
    {words : List String} {target : Path} {s : CommandSettings}
    (hwords : CommandRequest.parse words = .ok (.explore target s))
    (hthere : w.missing? (target :: s.config.toList) = .ok none) :
    (∀ path, Answers (Config.loadBy reader open? path) ↔
      ∀ bytes, open? path = .ok bytes → Config.Readable (reader bytes)) ∧
    (∀ path f, Config.loadBy reader open? path = .error f → (∃ cause, f = .config cause) ∨
      (∃ bytes, open? path = .ok bytes ∧ reader bytes = .error (.content f)) ∨
      f = .integerTooLong ∨ f = .tooDeep) ∧
    (Answers c.formats ↔ c.WritableAt "label.format") ∧
    ((∃ made, Provider.createAll c = .ok made) ↔
      c.WritableAt "label.class" ∧ ∀ names, c.list "label.class" = .ok names → ∀ name ∈ names,
        ∀ k, ProviderKind.ofName name = .ok k → k.HasTargets → c.WritableAt k.targetKey) ∧
    (Answers c.outputDir ↔
      ∀ d, c.get? "label.output_dir" = some d → d.isVoid ∨ ∃ text, d = .str text) ∧
    (Answers c.depthLimit ↔ ∀ d, c.get? "search.depth_limit" = some d → d.Countable) ∧
    (Answers c.maxStates ↔ ∀ d, c.get? "search.max_states" = some d → d.Countable) ∧
    (Answers (config (Config.loadBy reader open?) s) ↔
      ∀ file, s.config = some file → ∀ bytes, open? file = .ok bytes →
        Config.Readable (reader bytes)) ∧
    ∀ f reports, plan (Config.loadBy reader open?) s = .error (f, reports) →
      (∃ cause, f = .config cause ∧
        (w.runBy (Config.loadBy reader open?) words).status = .returned 3 ∧
        (w.runBy (Config.loadBy reader open?) words).errors =
          "Error: " ++ cause.message ++ "\n") ∨
      ((w.runBy (Config.loadBy reader open?) words).status = .crashed (.fault f) ∧
        ¬ (Answers (config (Config.loadBy reader open?) s) ∧
          ∀ c, config (Config.loadBy reader open?) s = .ok c → c.Workable)) := by
  refine ⟨fun path => Config.answers_loadBy_iff hreader, fun path f => Config.fault_of_loadBy,
    Config.answers_formats_iff, Provider.exists_createAll_iff, Config.answers_outputDir_iff,
    Config.answers_integer_iff, Config.answers_integer_iff, answers_config_iff hreader,
    fun f reports hplan => ?_⟩
  have hrun : w.runBy (Config.loadBy reader open?) words =
      w.exploreTarget (Config.loadBy reader open?) target s := by unfold runBy; rw [hwords]
  by_cases hf : ∃ cause, f = .config cause
  · obtain ⟨cause, rfl⟩ := hf
    refine .inl ⟨cause, rfl, ?_⟩
    rw [hrun, exploreTarget, hthere, hplan]
    exact ⟨rfl, rfl⟩
  · refine .inr ⟨?_, fun h => hf (refused_of_plan hplan h.1 h.2)⟩
    rw [hrun, exploreTarget, hthere, hplan]
    cases f with
    | config cause => exact absurd ⟨cause, rfl⟩ hf
    | _ => rfl

/-! ### A command that is left without a status -/

/-- What is there can be told by a comparison. -/
lemma eq_ok_of_toOption {ε α : Type} {x : Except ε α} {a : α} (h : x.toOption = some a) :
    x = .ok a := by
  cases x with
  | ok b => exact congrArg _ (Option.some.inj h)
  | error e => cases h

/-- A program, and a configuration whose output directory is a number. -/
def numbered : Workplace where
  files := ⟨[(["p.py"], .file ""), (["c.yml"], .file "label.output_dir: 5")], []⟩
  outside := default
  compile := fun _ _ => none

/-- The words that explore the program with the configuration. -/
def numberedWords : List String := ["p.py", "-c", "c.yml"]

/-- What the words say. -/
def numberedSettings : CommandSettings :=
  { CommandSettings.none with config := some (Path.ofText "c.yml") }

/-- The configuration. -/
def numberedConfig : Config := ⟨Bindings.empty.set "label.output_dir" (.int 5)⟩

lemma parse_numbered : CommandRequest.parse numberedWords =
    .ok (.explore (Path.ofText "p.py") numberedSettings) :=
  eq_ok_of_toOption (by decide +kernel)

lemma missing_numbered :
    numbered.missing? (Path.ofText "p.py" :: numberedSettings.config.toList) = .ok none :=
  eq_ok_of_toOption (by decide +kernel)

/-- Whether a tree is a mapping of one text to one integer. -/
def isEntry (key value : String) : Node → Bool
  | .mapping .map [(.scalar .str k, .scalar .int v)] => k == key && v == value
  | _ => false

lemma ofText_numbered : Node.ofText "label.output_dir: 5" =
    .ok (some (.mapping .map [(.scalar .str "label.output_dir", .scalar .int "5")])) := by
  have h : (Node.ofText "label.output_dir: 5").toOption.any
      (·.any (isEntry "label.output_dir" "5")) = true := by decide +kernel
  generalize Node.ofText "label.output_dir: 5" = r at h
  match r with
  | .ok none | .error _ => cases h
  | .ok (some n) =>
    simp only [Except.toOption, Option.any_some] at h
    unfold isEntry at h
    split at h
    · simp only [Bool.and_eq_true, beq_iff_eq] at h
      rw [h.1, h.2]
    · cases h

lemma documentOf_numbered : Config.documentOf "label.output_dir: 5" =
    .ok (.dict [(.str "label.output_dir", .int 5)]) := by
  have hchars : (Config.unifyLines "label.output_dir: 5".toList).all Config.isDocumentChar = true := by
    decide +kernel
  have hlines : String.ofList (Config.unifyLines "label.output_dir: 5".toList) =
      "label.output_dir: 5" := by decide +kernel
  have hfive : Scalar.integer "5" = .ok 5 := eq_ok_of_toOption (by decide +kernel)
  unfold Config.documentOf
  rw [if_pos hchars, hlines]
  unfold Datum.ofDocument
  rw [ofText_numbered]
  simp [Node.datum, Node.depth, Node.depthOfEntries, Node.datumWithin, Node.merged,
    Node.mergedParts, Node.hasTag, Except.bind, Except.map, Node.entriesBy, Node.asKey,
    Scalar.datum, hfive, Datum.canBeKey, Datum.setEntry, pure, Except.pure, Bind.bind]

/-- How the configurations of the place are loaded. -/
abbrev numberedLoad : Path → Except Fault Config := Config.load numbered.files

lemma config_numbered : config numberedLoad numberedSettings = .ok numberedConfig := by
  have hread : numbered.files.read (Path.ofText "c.yml") = .ok "label.output_dir: 5" :=
    eq_ok_of_toOption (by decide +kernel)
  have hreader : Config.documentReader "label.output_dir: 5".toUTF8 =
      .ok (.dict [(.str "label.output_dir", .int 5)]) := by
    have htext : String.fromUTF8? "label.output_dir: 5".toUTF8 = some "label.output_dir: 5" := by
      decide +kernel
    unfold Config.documentReader
    rw [htext]
    exact documentOf_numbered
  have hentries : Config.ofEntries [(.str "label.output_dir", .int 5)] = .ok numberedConfig := by
    simp [Config.ofEntries, Document.ofEntries, Document.nameOf, Datum.shown?, Document.ofDatum,
      Config.ofFields, Document.flatten, Document.flattenFields, Document.flattenField,
      numberedConfig]
  have hload : numberedLoad (Path.ofText "c.yml") = .ok numberedConfig := by
    unfold numberedLoad Config.load Config.loadBy
    simp only [hread, Except.map, hreader]
    exact hentries
  unfold config
  simp only [numberedSettings, hload]
  rfl

/-- The conditions of the theorem can be met: bytes that are no text are not answered. -/
theorem setup_answers_undecodable :
    CommandRequest.parse numberedWords = .ok (.explore (Path.ofText "p.py") numberedSettings) ∧
    numbered.missing? (Path.ofText "p.py" :: numberedSettings.config.toList) = .ok none ∧
    Config.documentReader.Foreign ∧
    ¬ Answers (Config.loadBy Config.documentReader (fun _ => .ok ⟨#[0xff]⟩)
      (Path.ofText "c.yml")) := by
  refine ⟨parse_numbered, missing_numbered, Config.foreign_documentReader, fun h => ?_⟩
  have hreadable : ∀ bytes : ByteArray, (.ok ⟨#[0xff]⟩ : Except FileError ByteArray) = .ok bytes →
      Config.Readable (Config.documentReader bytes) :=
    ((setup_answers Config.documentReader Config.foreign_documentReader (fun _ => .ok ⟨#[0xff]⟩)
      numberedConfig numbered parse_numbered missing_numbered).1 (Path.ofText "c.yml")).mp h
  have hnone : String.fromUTF8? ⟨#[0xff]⟩ = none := by decide +kernel
  have hread : Config.documentReader ⟨#[0xff]⟩ = .error (.content .undecodable) := by
    unfold Config.documentReader
    rw [hnone]
  exact (hreadable _ rfl).1 _ hread

/-- **A configuration that cannot be used is not always answered with a status.** An output
directory that is a number is no path; the fault is none of the configuration, and leaves the
command. -/
theorem output_directory_unanswered :
    CommandRequest.parse numberedWords = .ok (.explore (Path.ofText "p.py") numberedSettings) ∧
    numbered.missing? (Path.ofText "p.py" :: numberedSettings.config.toList) = .ok none ∧
    config numberedLoad numberedSettings = .ok numberedConfig ∧
    ¬ Answers numberedConfig.outputDir ∧
    (numbered.run numberedWords).status = .crashed (.fault (.notPath "int")) := by
  have hdir : numberedConfig.outputDir = .error (.notPath "int") := by
    simp [Config.outputDir, Config.get?, numberedConfig, Datum.isVoid, Config.toPath,
      Datum.typeName]
  have hunset (key : String) (h : key ≠ "label.output_dir") : numberedConfig.list key = .ok [] := by
    have hget : numberedConfig.get? key = none := Bindings.get?_set_of_ne h _ _
    simp [Config.list, Config.setting?, hget]
  have hproviders : Provider.createAll numberedConfig = .ok ([], []) := by
    simp [Provider.createAll, Config.providerNames, hunset, Provider.createNamed]
  have hsetup : RunSetup.ofConfig numberedConfig = .error (.notPath "int") := by
    have hformats : numberedConfig.formats = .ok [.text, .dot] := by
      simp [Config.formats, hunset]
    simp [RunSetup.ofConfig, hformats, RunSetup.writersOf, RunSetup.writer, hproviders, hdir]
  have hplan : ∃ reports, plan numberedLoad numberedSettings =
      .error (.notPath "int", reports) := by
    simp [plan, config_numbered, hsetup]
  obtain ⟨reports, hplan⟩ := hplan
  refine ⟨parse_numbered, missing_numbered, config_numbered, hdir ▸ not_answers (by simp), ?_⟩
  have hrun : numbered.run numberedWords =
      numbered.exploreTarget numberedLoad (Path.ofText "p.py") numberedSettings := by
    unfold run runBy
    rw [parse_numbered]
  rw [hrun, exploreTarget, missing_numbered, hplan]
  rfl

end Workplace

end StateAtlas
