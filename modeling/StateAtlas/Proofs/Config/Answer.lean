import Mathlib.Tactic.Common
import StateAtlas.Config.File
import StateAtlas.Provider.Basic
import StateAtlas.Proofs.Yaml.Content

set_option autoImplicit false

/-!
# Which configurations are answered

Every step that sets up a run yields a result, or says why the configuration cannot be used, or is
broken off for another reason. The steps convert the data of a configuration: to texts, to integers,
to a path. What a conversion is broken off for depends on the data alone, and is found here for each
of them. What makes data of the bytes of a file is left open: all that is asked of a reader is that
its own faults are no faults of configurations.

## Main definitions

* `StateAtlas.Answers` — a step yields a result or says why the configuration cannot be used.
* `StateAtlas.Datum.Writable` — no integer in a datum has too many digits to be written.
* `StateAtlas.Datum.Countable` — a datum is an integer, or can be told not to be one.
* `StateAtlas.Datum.Flattens` — the names in a mapping of mappings can be written, and it ends.
* `StateAtlas.DocumentReader.Foreign` — the faults of a reader are its own.
* `StateAtlas.Config.Readable` — a configuration file is malformed or has a value.

## Main results

* `StateAtlas.Config.answers_loadBy_iff` — the contents of configuration files that are answered.
* `StateAtlas.Config.answers_formats_iff`, `StateAtlas.Config.answers_outputDir_iff`,
  `StateAtlas.Config.answers_integer_iff`, `StateAtlas.Provider.exists_createAll_iff` — the data
  for which each setting is answered.
-/

namespace StateAtlas

variable {α β : Type}

/-- A step yields a result, or says why the configuration cannot be used. -/
def Answers (x : Except Fault α) : Prop := ∀ f, x = .error f → ∃ cause, f = .config cause

lemma answers_ok (a : α) : Answers (.ok a) := fun _ h => (by cases h)

lemma answers_config (cause : ConfigFault) : Answers (.error (.config cause) : Except Fault α) :=
  fun _ h => ⟨cause, (Except.error.inj h).symm⟩

/-- A step that is broken off does not answer. -/
lemma not_answers {f : Fault} (hf : ∀ cause, f ≠ .config cause) :
    ¬ Answers (.error f : Except Fault α) := fun h =>
  have ⟨cause, hcause⟩ := h f rfl
  hf cause hcause

/-- A fault that is handed on is answered as it was. -/
lemma Answers.of_eq_error {x : Except Fault α} {f : Fault} (h : Answers x) (hx : x = .error f) :
    Answers (.error f : Except Fault β) :=
  fun _ hf => h _ (hx.trans (congrArg _ (Except.error.inj hf)))

lemma Answers.of_error {f : Fault} (h : Answers (.error f : Except Fault α)) :
    Answers (.error f : Except Fault β) :=
  h.of_eq_error rfl

/-! ### Texts -/

namespace Datum

mutual

/-- No integer in a datum has too many digits to be written, and no data in it are without text. -/
def Writable : Datum → Prop
  | .int i => i.natAbs < Nat.pow 10 digitLimit
  | .list items | .tuple items | .set _ items => AllWritable items
  | .dict entries => EntriesWritable entries
  | .unwritable _ => False
  | _ => True

/-- Some data can be written. -/
def AllWritable : List Datum → Prop
  | [] => True
  | d :: ds => Writable d ∧ AllWritable ds

/-- The entries of a mapping can be written. -/
def EntriesWritable : List (Datum × Datum) → Prop
  | [] => True
  | (k, v) :: es => Writable k ∧ Writable v ∧ EntriesWritable es

end

mutual

/-- The data that can be written are those that have a text. -/
lemma isSome_quoted?_iff : ∀ d : Datum, d.quoted?.isSome ↔ d.Writable
  | .int i => by
    rw [quoted?, integerText?, Writable]
    split
    · exact iff_of_true rfl ‹_›
    · exact iff_of_false (by simp) ‹_›
  | .list items => by simp [quoted?, Writable, isSome_quotedItems?_iff items]
  | .tuple items => by simp [quoted?, Writable, isSome_quotedItems?_iff items]
  | .set _ items => by simp [quoted?, Writable, isSome_quotedItems?_iff items]
  | .dict entries => by simp [quoted?, Writable, isSome_quotedEntries?_iff entries]
  | .null | .bool _ | .float _ | .complex .. | .str _ | .bytes _ | .cycle _ | .foreign ..
  | .unwritable _ => by simp [quoted?, Writable]

lemma isSome_quotedItems?_iff : ∀ ds : List Datum, (quotedItems? ds).isSome ↔ AllWritable ds
  | [] => by simp [quotedItems?, AllWritable]
  | d :: ds => by
    rw [quotedItems?, AllWritable, ← isSome_quoted?_iff d, ← isSome_quotedItems?_iff ds]
    cases quoted? d <;> cases quotedItems? ds <;> simp

lemma isSome_quotedEntries?_iff :
    ∀ es : List (Datum × Datum), (quotedEntries? es).isSome ↔ EntriesWritable es
  | [] => by simp [quotedEntries?, EntriesWritable]
  | (k, v) :: es => by
    rw [quotedEntries?, EntriesWritable, ← isSome_quoted?_iff k, ← isSome_quoted?_iff v,
      ← isSome_quotedEntries?_iff es]
    cases quoted? k <;> cases quoted? v <;> cases quotedEntries? es <;> simp

end

/-- A datum has a text on its own if it has one inside another. -/
lemma isSome_shown?_iff (d : Datum) : d.shown?.isSome ↔ d.Writable := by
  rw [← isSome_quoted?_iff]
  unfold shown?
  split <;> simp [quoted?]

lemma allWritable_iff (ds : List Datum) : AllWritable ds ↔ ∀ d ∈ ds, d.Writable := by
  induction ds with
  | nil => simp [AllWritable]
  | cons d ds ih => simp [AllWritable, ih]

end Datum

namespace Config

/-- What a key holds can be written. -/
def WritableAt (c : Config) (key : String) : Prop := ∀ d, c.get? key = some d → d.Writable

variable {c : Config} {key : String}

lemma writableAt_iff {d : Datum} (h : c.get? key = some d) : c.WritableAt key ↔ d.Writable :=
  ⟨fun hc => hc d h, fun hd _ h' => Option.some.inj (h.symm.trans h') ▸ hd⟩

lemma writableAt_of_none (h : c.get? key = none) : c.WritableAt key :=
  fun _ h' => by simp [h] at h'

/-- The texts of the items of a list are there if all items can be written. -/
lemma isSome_itemTexts?_iff (items : List Datum) :
    (itemTexts? items).isSome ↔ Datum.AllWritable items := by
  induction items with
  | nil => simp [itemTexts?, Datum.AllWritable]
  | cons d ds ih =>
    rw [Datum.AllWritable, ← ih, ← Datum.isSome_shown?_iff]
    cases d with
    | null => simp [itemTexts?, Datum.shown?, Datum.quoted?]
    | _ =>
      rw [itemTexts?]
      · cases Datum.shown? _ <;> cases itemTexts? ds <;> simp
      · simp

/-- The entries under a key are there if what the key holds can be written. -/
lemma exists_list_iff : (∃ entries, c.list key = .ok entries) ↔ c.WritableAt key := by
  unfold list setting?
  cases hd : c.get? key with
  | none => exact iff_of_true ⟨[], rfl⟩ (writableAt_of_none hd)
  | some d =>
    rw [writableAt_iff hd]
    cases d with
    | null => exact iff_of_true ⟨[], rfl⟩ trivial
    | list items | tuple items =>
      simp only [Datum.Writable, ← isSome_itemTexts?_iff]
      cases itemTexts? items <;> simp
    | _ =>
      simp only [← Datum.isSome_shown?_iff]
      cases Datum.shown? _ <;> simp

/-- Entries that are not there are not refused: the step is broken off. -/
lemma eq_tooLong_of_list {f : Fault} (h : c.list key = .error f) : f = .integerTooLong := by
  unfold list at h
  repeat' split at h
  all_goals cases h
  all_goals rfl

lemma answers_list_iff : Answers (c.list key) ↔ c.WritableAt key := by
  rw [← exists_list_iff]
  cases h : c.list key with
  | ok entries => exact iff_of_true (answers_ok _) ⟨entries, rfl⟩
  | error f =>
    rw [eq_tooLong_of_list h]
    exact iff_of_false (not_answers (by simp)) (by simp)

/-- **The output formats** are answered if what their key holds can be written. -/
lemma answers_formats_iff : Answers c.formats ↔ c.WritableAt "label.format" := by
  rw [← answers_list_iff]
  unfold formats
  cases h : c.list "label.format" with
  | error f => exact ⟨Answers.of_error, Answers.of_error⟩
  | ok names =>
    refine iff_of_true ?_ (answers_ok _)
    simp only
    repeat' split
    · exact answers_ok _
    · exact answers_ok _
    · exact answers_config _

/-- **The output directory** is answered if its key holds nothing, zero, something empty, or a
text. -/
lemma answers_outputDir_iff :
    Answers c.outputDir ↔
      ∀ d, c.get? "label.output_dir" = some d → d.isVoid ∨ ∃ s, d = .str s := by
  unfold outputDir
  cases hd : c.get? "label.output_dir" with
  | none => exact iff_of_true (answers_ok _) (by simp)
  | some d =>
    simp only [Option.some.injEq, forall_eq']
    split
    · exact iff_of_true (answers_ok _) (.inl ‹_›)
    · rename_i hvoid
      simp only [hvoid, Bool.false_eq_true, false_or]
      cases d with
      | str s => exact iff_of_true (answers_ok _) ⟨s, rfl⟩
      | _ => exact iff_of_false (not_answers (by simp)) (by simp)

end Config

/-- A datum is an integer, or can be told not to be one: it is not infinite, and it can be
written. -/
def Datum.Countable : Datum → Prop
  | .int _ => True
  | .float x => ∀ negative, Binary.ofFloat x ≠ .infinite negative
  | d => d.Writable

namespace Config

variable {c : Config} {key : String} {d : Datum}

/-- A number that is not infinite can be converted. -/
lemma exists_toInteger_float {x : Float} (h : ∀ negative, Binary.ofFloat x ≠ .infinite negative) :
    ∃ i, toInteger (.float x) = .ok i := by
  unfold toInteger
  simp only
  exact ⟨_, rfl⟩

/-- A conversion to an integer is broken off at infinity alone. -/
lemma countable_iff :
    Answers (toInteger d) ∧ (toInteger d = .ok none → d.Writable) ↔ d.Countable := by
  cases d with
  | float x =>
    by_cases h : ∀ negative, Binary.ofFloat x ≠ .infinite negative
    · obtain ⟨i, hi⟩ := exists_toInteger_float h
      exact iff_of_true ⟨hi ▸ answers_ok _, fun _ => trivial⟩ h
    · refine iff_of_false (fun ha => ?_) h
      push Not at h
      obtain ⟨negative, h⟩ := h
      have hx : toInteger (.float x) = .error .infiniteInteger := by simp only [toInteger, h]
      exact not_answers (by simp) (hx ▸ ha.1)
  | bytes bs =>
    refine iff_of_true ⟨?_, fun _ => trivial⟩ trivial
    unfold toInteger
    simp only
    split <;> exact answers_ok _
  | null | bool _ | str _ => exact iff_of_true ⟨answers_ok _, fun _ => trivial⟩ trivial
  | int _ => exact iff_of_true ⟨answers_ok _, fun h => (by cases h)⟩ trivial
  | _ => exact ⟨fun h => h.2 rfl, fun h => ⟨answers_ok _, fun _ => h⟩⟩

/-- A setting is converted, or refused by its text. -/
lemma answers_integer_of_setting (hd : c.setting? key = some d) :
    Answers (c.integer key) ↔ d.Countable := by
  rw [← countable_iff]
  unfold integer
  simp only [hd]
  cases toInteger d with
  | error f => exact ⟨fun h => ⟨h.of_error, by simp⟩, fun h => h.1.of_error⟩
  | ok i =>
    cases i with
    | some i => exact iff_of_true (answers_ok _) ⟨answers_ok _, by simp⟩
    | none =>
      simp only [← Datum.isSome_quoted?_iff, forall_const]
      cases d.quoted? with
      | some t => exact iff_of_true (answers_config _) ⟨answers_ok _, rfl⟩
      | none => exact iff_of_false (not_answers (by simp)) (by simp)

/-- **An integer** is answered if what its key holds is one or can be told not to be one. -/
lemma answers_integer_iff :
    Answers (c.integer key) ↔ ∀ d, c.get? key = some d → d.Countable := by
  cases hd : c.get? key with
  | none =>
    have h : c.integer key = .ok none := by simp only [integer, setting?, hd]
    exact iff_of_true (h ▸ answers_ok _) (by simp)
  | some d =>
    simp only [Option.some.injEq, forall_eq']
    cases d with
    | null =>
      have h : c.integer key = .ok none := by simp only [integer, setting?, hd]
      exact iff_of_true (h ▸ answers_ok _) trivial
    | _ => exact answers_integer_of_setting (by simp only [setting?, hd])

end Config

/-! ### Providers -/

/-- The providers of a kind have targets. -/
def ProviderKind.HasTargets (k : ProviderKind) : Prop :=
  k ≠ .initial ∧ k ≠ .final ∧ k ≠ .allDifferent

namespace Provider

variable {c : Config} {k : ProviderKind}

lemma answers_create_iff :
    Answers (create c k) ↔ (k.HasTargets → c.WritableAt k.targetKey) := by
  rw [← Config.answers_list_iff]
  unfold create
  cases k with
  | initial => exact iff_of_true (answers_ok _) fun h => absurd rfl h.1
  | final => exact iff_of_true (answers_ok _) fun h => absurd rfl h.2.1
  | allDifferent => exact iff_of_true (answers_ok _) fun h => absurd rfl h.2.2
  | _ =>
    simp only [ProviderKind.HasTargets, ne_eq, reduceCtorEq, not_false_eq_true, and_self,
      forall_const]
    cases c.list (ProviderKind.targetKey _) with
    | error f => exact ⟨Answers.of_error, Answers.of_error⟩
    | ok targets =>
      refine iff_of_true ?_ (answers_ok _)
      simp only
      split
      · exact answers_ok _
      · exact answers_config _

/-- A provider is made, or refused, if what the key of its targets holds can be written. -/
lemma answers_ofName_iff {name : String} :
    Answers (ofName c name) ↔
      ∀ k, ProviderKind.ofName name = .ok k → k.HasTargets → c.WritableAt k.targetKey := by
  unfold ofName
  cases ProviderKind.ofName name with
  | ok k => simp [answers_create_iff]
  | error f => exact iff_of_true (answers_config _) (by simp)

/-- The providers of some names are made, without those that are refused. -/
lemma exists_createNamed_iff {names : List String} :
    (∃ made, createNamed c names = .ok made) ↔ ∀ name ∈ names, Answers (ofName c name) := by
  induction names with
  | nil => simp [createNamed]
  | cons name names ih =>
    rw [List.forall_mem_cons, ← ih, createNamed]
    cases ofName c name with
    | ok p =>
      simp only [answers_ok, true_and]
      cases createNamed c names <;> simp
    | error f =>
      cases f with
      | config cause =>
        simp only [answers_config, true_and]
        cases createNamed c names <;> simp
      | _ => exact iff_of_false (by simp) fun h => not_answers (by simp) h.1

/-- **The providers** are made if what the key of their names holds can be written, and what the
keys of the targets of those that are named and known hold. -/
lemma exists_createAll_iff :
    (∃ made, createAll c = .ok made) ↔
      c.WritableAt "label.class" ∧ ∀ names, c.list "label.class" = .ok names → ∀ name ∈ names,
        ∀ k, ProviderKind.ofName name = .ok k → k.HasTargets → c.WritableAt k.targetKey := by
  rw [← Config.exists_list_iff]
  unfold createAll Config.providerNames
  cases h : c.list "label.class" with
  | ok names =>
    simp only [Except.ok.injEq, exists_eq', forall_eq', true_and, exists_createNamed_iff,
      answers_ofName_iff]
  | error f => simp

end Provider

/-! ### Files -/

mutual

/-- The names in a mapping of mappings can be written, and no mapping contains itself. -/
def Datum.Flattens : Datum → Prop
  | .dict entries => EntriesFlatten entries
  | .cycle isMapping => isMapping = false
  | _ => True

/-- The names of some entries can be written, and their values can be flattened. -/
def EntriesFlatten : List (Datum × Datum) → Prop
  | [] => True
  | (k, v) :: es => k.Writable ∧ v.Flattens ∧ EntriesFlatten es

end

namespace Document

variable {key : Datum}

lemma exists_nameOf_iff : (∃ name, nameOf key = .ok name) ↔ key.Writable := by
  rw [nameOf, ← Datum.isSome_shown?_iff]
  cases key.shown? <;> simp

lemma fault_of_nameOf {f : Fault} (h : nameOf key = .error f) : f = .integerTooLong := by
  unfold nameOf at h
  split at h
  · cases h
  · exact (Except.error.inj h).symm

mutual

/-- There is no tree of a datum if a name in it cannot be written or it has no end. -/
lemma fault_of_ofDatum : ∀ {d : Datum} {f : Fault}, ofDatum d = .error f →
    f = .integerTooLong ∨ f = .tooDeep
  | .dict entries, f, h => by
    rw [ofDatum] at h
    split at h
    · cases h
    · rename_i h'
      cases h
      exact fault_of_ofEntries h'
  | .cycle true, f, h => by
    rw [ofDatum] at h
    exact .inr (Except.error.inj h).symm
  | .cycle false, f, h | .null, f, h | .bool _, f, h | .int _, f, h | .float _, f, h
  | .complex .., f, h | .str _, f, h | .bytes _, f, h | .list _, f, h | .tuple _, f, h
  | .set .., f, h | .foreign .., f, h | .unwritable _, f, h => by simp [ofDatum] at h

lemma fault_of_ofEntries : ∀ {es : List (Datum × Datum)} {f : Fault},
    ofEntries es = .error f → f = .integerTooLong ∨ f = .tooDeep
  | [], f, h => by simp [ofEntries] at h
  | (k, v) :: es, f, h => by
    rw [ofEntries] at h
    split at h
    · rename_i hk
      cases h
      exact .inl (fault_of_nameOf hk)
    · rename_i hv _
      cases h
      exact fault_of_ofDatum hv
    · rename_i hes _ _
      cases h
      exact fault_of_ofEntries hes
    · cases h

end

mutual

lemma exists_ofDatum_iff : ∀ d : Datum, (∃ tree, ofDatum d = .ok tree) ↔ d.Flattens
  | .dict entries => by
    rw [ofDatum, Datum.Flattens, ← exists_ofEntries_iff entries]
    cases ofEntries entries <;> simp
  | .cycle true | .cycle false | .null | .bool _ | .int _ | .float _ | .complex .. | .str _
  | .bytes _ | .list _ | .tuple _ | .set .. | .foreign .. | .unwritable _ => by
    simp [ofDatum, Datum.Flattens]

lemma exists_ofEntries_iff :
    ∀ es : List (Datum × Datum), (∃ fields, ofEntries es = .ok fields) ↔ EntriesFlatten es
  | [] => by simp [ofEntries, EntriesFlatten]
  | (k, v) :: es => by
    rw [ofEntries, EntriesFlatten, ← exists_nameOf_iff, ← exists_ofDatum_iff v,
      ← exists_ofEntries_iff es]
    cases nameOf k <;> cases ofDatum v <;> cases ofEntries es <;> simp

end

end Document

/-- The faults of a reader are its own: none of them is that of a configuration that cannot be
used. -/
def DocumentReader.Foreign (reader : DocumentReader) : Prop :=
  ∀ bytes f, reader bytes = .error (.content f) → ∀ cause, f ≠ .config cause

namespace Config

/-- What comes of reading a file: it is malformed, or it has a value that can be flattened. -/
def Readable (x : Content) : Prop :=
  (∀ f, x ≠ .error (.content f)) ∧ ∀ entries, x = .ok (.dict entries) → EntriesFlatten entries

variable {path : Path} {reader : DocumentReader} {open? : Path → Except FileError ByteArray}
  {f : Fault}

/-- The faults of the content of a file: those of the reader, and those of the names in it. -/
lemma fault_of_ofContent {x : Content} (h : ofContent path x = .error f) :
    (∃ cause, f = .config cause) ∨ x = .error (.content f) ∨ f = .integerTooLong ∨ f = .tooDeep := by
  unfold ofContent at h
  split at h
  · exact .inl ⟨_, (Except.error.inj h).symm⟩
  · cases h
    exact .inr (.inl rfl)
  · unfold ofEntries at h
    split at h
    · cases h
    · rename_i h'
      cases h
      exact .inr (.inr (Document.fault_of_ofEntries h'))
  · split at h
    · cases h
    · exact .inl ⟨_, (Except.error.inj h).symm⟩

/-- **The content of a file** is answered if it is readable. -/
lemma answers_ofContent_iff {x : Content}
    (hx : ∀ f, x = .error (.content f) → ∀ cause, f ≠ .config cause) :
    Answers (ofContent path x) ↔ Readable x := by
  unfold ofContent Readable
  split
  · exact iff_of_true (answers_config _) (by simp)
  · rename_i f
    exact iff_of_false (not_answers (hx f rfl)) (by simp)
  · rename_i entries
    simp only [reduceCtorEq, not_false_eq_true, implies_true, Except.ok.injEq, Datum.dict.injEq,
      forall_eq', true_and, ne_eq]
    rw [← Document.exists_ofEntries_iff]
    unfold ofEntries
    cases he : Document.ofEntries entries with
    | ok fields => exact iff_of_true (answers_ok _) ⟨fields, rfl⟩
    | error f =>
      refine iff_of_false (not_answers fun cause hf => ?_) (by simp)
      obtain rfl | rfl := Document.fault_of_ofEntries he <;> cases hf
  · rename_i d hd
    refine iff_of_true ?_ ⟨by simp, fun entries he => ?_⟩
    · split
      · exact answers_ok _
      · exact answers_config _
    · exact absurd (Except.ok.inj he) (hd entries)

/-- **A file** is answered if its content is readable, or if it cannot be opened at all. -/
lemma answers_loadBy_iff (hreader : reader.Foreign) :
    Answers (loadBy reader open? path) ↔
      ∀ bytes, open? path = .ok bytes → Readable (reader bytes) := by
  unfold loadBy
  cases open? path with
  | ok bytes => simp [answers_ofContent_iff (hreader bytes)]
  | error e => exact iff_of_true (answers_config _) (by simp)

/-- The faults of a file. -/
lemma fault_of_loadBy (h : loadBy reader open? path = .error f) :
    (∃ cause, f = .config cause) ∨
      (∃ bytes, open? path = .ok bytes ∧ reader bytes = .error (.content f)) ∨
      f = .integerTooLong ∨ f = .tooDeep := by
  unfold loadBy at h
  split at h
  · rename_i bytes hopen
    exact (fault_of_ofContent h).imp_right (Or.imp_left fun hx => ⟨bytes, hopen, hx⟩)
  · exact .inl ⟨_, (Except.error.inj h).symm⟩

/-- The reader of this library has faults of its own only: bytes that are no text, and scalars
without a value. -/
lemma foreign_documentReader : documentReader.Foreign := by
  intro bytes f h cause hf
  unfold documentReader at h
  split at h
  · unfold documentOf at h
    simp only at h
    split at h
    · cases hf ▸ Datum.ofScalar_ofDocument h
    · cases h
  · cases h
    cases hf

end Config

end StateAtlas
