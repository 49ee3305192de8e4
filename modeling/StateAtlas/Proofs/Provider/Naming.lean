import Mathlib.Tactic.Common
import StateAtlas.Proofs.Label.Tally
import StateAtlas.Provider.Basic

set_option autoImplicit false

/-!
# The names of labels

The names of labels are words of ASCII letters, digits and underscores, whatever the providers of a
configuration watch, with one exception: the parts of a name that come from the program or from a
configuration are mangled, and numbers are written in digits with the sign spelled out; but an
integer that is not negative and has a text by itself is written as this text. A name is never
empty, for it has a fixed part, or it is the mangled name of a class, which is not empty.

## Main definitions

* `StateAtlas.Label.Proper` — the name of a label is a word of certain characters.
* `StateAtlas.Value.Worded` — the text that a value writes in place of digits consists of these.
* `StateAtlas.Provider.Clear`, `StateAtlas.Provider.Returns` — so does what a provider writes of the
  values in a scene, or of a returned one.
* `StateAtlas.LabelProvider.Upholds` — providers of some sort stay so, and name labels of some sort
  only.

## Main results

* `StateAtlas.Provider.upholds` — the providers of a configuration name proper labels only, as far
  as what they write of values allows.
-/

namespace StateAtlas

/-! ## Words -/

/-- A text of certain characters. -/
def IsText (ok : Char → Prop) (s : String) : Prop := ∀ c ∈ s.toList, ok c

@[simp] lemma isText_append {ok : Char → Prop} {s t : String} :
    IsText ok (s ++ t) ↔ IsText ok s ∧ IsText ok t := by
  simp [IsText, or_imp, forall_and]

/-- A text that may stand in a label. -/
def IsLabelText (s : String) : Prop := IsText (isLabelChar · = true) s

instance (s : String) : Decidable (IsLabelText s) :=
  decidable_of_iff (s.toList.all isLabelChar = true) List.all_eq_true

/-- The characters of a label are the ASCII letters and digits and the underscore. -/
lemma isLabelChar_iff {c : Char} : isLabelChar c = true ↔ c.isAlphanum = true ∨ c = '_' := by
  have hdigit : c.isDigit = true ↔ '0' ≤ c ∧ c ≤ '9' :=
    Bool.and_eq_true_iff.trans (and_congr decide_eq_true_iff decide_eq_true_iff)
  have hupper : c.isUpper = true ↔ 'A' ≤ c ∧ c ≤ 'Z' := decide_eq_true_iff
  have hlower : c.isLower = true ↔ 'a' ≤ c ∧ c ≤ 'z' :=
    Bool.and_eq_true_iff.trans (and_congr decide_eq_true_iff decide_eq_true_iff)
  change isLabelChar c = true ↔ (c.isUpper || c.isLower || c.isDigit) = true ∨ c = '_'
  simp only [isLabelChar, Bool.or_eq_true, Bool.and_eq_true, decide_eq_true_eq, beq_iff_eq, hdigit,
    hupper, hlower]
  exact or_congr_left (or_assoc.trans or_comm)

@[simp] lemma isLabelText_append {s t : String} :
    IsLabelText (s ++ t) ↔ IsLabelText s ∧ IsLabelText t := isText_append

/-- Whatever is mangled may stand in a label. -/
@[simp] lemma isLabelText_mangle (s : String) : IsLabelText (mangle s) := by
  intro c hc
  rw [mangle, String.toList_ofList] at hc
  obtain ⟨c', -, rfl⟩ := List.mem_map.mp hc
  split
  · assumption
  · decide

/-- Nothing is lost when a text is mangled. -/
lemma mangle_ne_empty {s : String} (h : s ≠ "") : mangle s ≠ "" := by
  simpa [mangle] using h

@[simp] lemma isLabelText_repr (n : Nat) : IsLabelText n.repr := by
  intro c hc
  rw [Nat.toList_repr] at hc
  have hd : c.isDigit = true := Nat.isDigit_of_mem_toDigits (by decide) (by decide) hc
  exact isLabelChar_iff.mpr (.inl (by simp [Char.isAlphanum, hd]))

@[simp] lemma isLabelText_booleanWord (b : Bool) : IsLabelText (FieldReading.booleanWord b) := by
  cases b with
  | false => exact (by decide +kernel : IsLabelText "false")
  | true => exact (by decide +kernel : IsLabelText "true")

/-- The digits of an integer that is not negative may stand in a label. -/
lemma isLabelText_of_integerText? {i : Int} {digits : String} (hi : 0 ≤ i)
    (h : integerText? i = some digits) : IsLabelText digits := by
  rw [integerText?] at h
  generalize Nat.pow 10 digitLimit = bound at h
  split at h
  · obtain rfl := Option.some.inj h
    obtain ⟨n, rfl⟩ := Int.eq_ofNat_of_zero_le hi
    exact isLabelText_repr n
  · simp at h

section Written

variable {ok : Char → Prop} (hok : ∀ c, isLabelChar c = true → ok c)

include hok in
/-- The word of an integer consists of such characters, if the text that the integer has by itself
does: a sign is spelled out, and the text is taken as it is. -/
lemma isText_of_integerWord? {i : Int} {own : Option String} {word : String}
    (hown : 0 ≤ i → ∀ text, own = some text → IsText ok text)
    (h : FieldReading.integerWord? i own = some word) : IsText ok word := by
  have digits : ∀ {word}, IsLabelText word → IsText ok word := fun h c hc => hok c (h c hc)
  rw [FieldReading.integerWord?] at h
  split at h
  · obtain ⟨word, hd, rfl⟩ := Option.map_eq_some_iff.mp h
    refine digits ?_
    rw [isLabelText_append]
    exact ⟨by decide, isLabelText_of_integerText? (Int.natCast_nonneg _) hd⟩
  · rename_i hi
    have hi : 0 ≤ i := Int.not_lt.mp hi
    generalize hd : integerText? i = word? at h
    cases own with
    | none =>
      obtain rfl : word? = some word := h
      exact digits (isLabelText_of_integerText? hi hd)
    | some text =>
      obtain rfl := Option.some.inj h
      exact hown hi text rfl

/-- The text that a reading writes in place of its digits consists of certain characters. -/
def FieldReading.Worded (ok : Char → Prop) : FieldReading → Prop
  | .bool _ => True
  | .int i own => 0 ≤ i → ∀ text, own = some text → IsText ok text

include hok in
/-- So does the word of the reading. -/
lemma isText_of_texts {r : FieldReading} {word text : String} (hr : r.Worded ok)
    (h : r.texts = .ok (word, text)) : IsText ok word := by
  cases r with
  | bool b =>
    obtain ⟨rfl, -⟩ := Prod.mk.inj (Except.ok.inj h)
    exact fun c hc => hok c (isLabelText_booleanWord b c hc)
  | int i own =>
    -- the digits themselves are not to be computed
    delta FieldReading.texts at h
    dsimp only at h
    generalize hword : FieldReading.integerWord? i own = word? at h
    generalize (own <|> integerText? i) = text? at h
    cases word? with
    | none => simp at h
    | some word' =>
      cases text? with
      | none => simp at h
      | some text' =>
        obtain ⟨rfl, -⟩ := Prod.mk.inj (Except.ok.inj h)
        exact isText_of_integerWord? hok hr hword

/-- If a value is an integer that is not negative, the text that it has by itself consists of certain
characters. -/
def Value.Worded (ok : Char → Prop) (v : Value) : Prop :=
  ∀ i, v.integer? = some i → (FieldReading.int i v.ownText?).Worded ok

/-! ## Labels -/

/-- The name of a label is a word of certain characters. -/
structure Label.Proper (ok : Char → Prop) (l : Label) : Prop where
  nonempty : l.name ≠ ""
  chars : IsText ok l.name

include hok in
lemma Label.Proper.of_text {l : Label} (hne : l.name ≠ "") (h : IsLabelText l.name) : l.Proper ok :=
  ⟨hne, fun c hc => hok c (h c hc)⟩

end Written

/-- Providers of some sort stay of that sort, and every label that they name is of some sort, as long
as they are shown certain scenes and instructions only. -/
structure LabelProvider.Upholds {P : Type} [LabelProvider P] (shown : Scene → Prop)
    (ran : Instruction → Prop) (good : P → Prop) (proper : Label → Prop) : Prop where
  states : ∀ view p, shown view.scene → good p → good (stateLabels view p).1 ∧
    ∀ l ∈ Opinion.labels (stateLabels view p).2, proper l
  before : ∀ s i p, good p → good (beforeInstruction s i p).1
  after : ∀ s i p, ran i → good p → good (breakAfter s i p).1 ∧
    ∀ l ∈ Opinion.labels (breakAfter s i p).2, proper l
  next : ∀ s i p, good p → good (breakBefore s i p).1 ∧
    ∀ l ∈ Opinion.labels (breakBefore s i p).2, proper l

/-! ## Fields, variables and functions -/

variable {ok : Char → Prop}

/-- What is written of the values of fields in a scene consists of certain characters. -/
def FieldProvider.Worded (ok : Char → Prop) (q : FieldProvider) (s : Scene) : Prop :=
  q.boolean = false → ∀ spec ∈ q.fields, ∀ v, s.resolve? spec.signature = some v → v.Worded ok

/-- So does what a field says. -/
lemma FieldProvider.Worded.current? {q : FieldProvider} {s : Scene} (h : q.Worded ok s)
    {spec : FieldSpec} (hspec : spec ∈ q.fields) {r : FieldReading}
    (hr : q.current? s spec = some r) : r.Worded ok := by
  obtain ⟨v, hv, hr⟩ := Option.bind_eq_some_iff.mp hr
  rw [reading?] at hr
  split at hr
  · obtain ⟨b, -, rfl⟩ := Option.map_eq_some_iff.mp hr
    exact trivial
  · rename_i hb
    obtain ⟨i, hi, rfl⟩ := Option.map_eq_some_iff.mp hr
    exact h (Bool.eq_false_iff.mpr hb) spec hspec v hv i hi

section Proper

variable (hok : ∀ c, isLabelChar c = true → ok c)

include hok

/-- The labels of fields are proper. -/
lemma FieldProvider.proper_labelsOf {q : FieldProvider} {s : Scene} (hq : q.Worded ok s)
    {fields : List FieldSpec} (hfields : fields ⊆ q.fields) :
    ∀ {ls : List Label}, q.labelsOf s fields = .ok ls → ∀ l ∈ ls, l.Proper ok := by
  induction fields with
  | nil =>
    intro ls h
    obtain rfl := Except.ok.inj h
    simp
  | cons spec rest ih =>
    intro ls h
    obtain ⟨hspec, hrest⟩ := List.cons_subset.mp hfields
    replace ih := @ih hrest
    rw [labelsOf] at h
    split at h
    · exact ih h
    · rename_i r hcurrent
      split at h
      · rename_i l ls' hlabel hrest
        obtain rfl := Except.ok.inj h
        rw [FieldProvider.label] at hlabel
        split at hlabel
        · rename_i word text htexts
          obtain rfl := Except.ok.inj hlabel
          intro l' hl'
          rcases List.mem_cons.mp hl' with rfl | hl'
          · have hword := isText_of_texts hok (hq.current? hspec hcurrent) htexts
            refine ⟨by simp, ?_⟩
            simp only [isText_append]
            exact ⟨⟨hword, fun c hc => hok c ((by decide : IsLabelText "__") c hc)⟩,
              fun c hc => hok c (isLabelText_mangle _ c hc)⟩
          · exact ih hrest l' hl'
        · simp at hlabel
      · simp at h
      · simp at h

/-- The label of a variable is proper. -/
lemma VariableProvider.proper_label? {q : VariableProvider} {spec : VariableSpec} {function : String}
    {v : Value} {l : Label} (h : q.label? spec function v = some l) :
    l.Proper ok := by
  simp only [label?] at h
  split at h
  · obtain rfl := Option.some.inj h
    exact .of_text hok (by simp) (by simpa using by decide)
  · obtain rfl := Option.some.inj h
    exact .of_text hok (by simp) (by simpa using by decide)
  · simp at h

/-- The labels of variables are proper. -/
lemma VariableProvider.proper_labelsOf {view : View} {specs : List VariableSpec} :
    ∀ {q : VariableProvider}, ∀ l ∈ (labelsOf view specs q).2, l.Proper ok := by
  induction specs with
  | nil => simp [labelsOf]
  | cons spec rest ih =>
    intro q l hl
    rw [labelsOf] at hl
    simp only [List.mem_append, Option.mem_toList] at hl
    rcases hl with hl | hl
    · obtain ⟨⟨function, v⟩, -, hv⟩ := Option.bind_eq_some_iff.mp hl
      exact proper_label? hok hv
    · exact ih l hl

/-- The labels of returns are proper. -/
lemma FunctionProvider.proper_returnLabels {watch : FunctionWatch} {pattern function : String}
    {v : Value} (hv : watch = .integer → v.Worded ok) :
    ∀ l ∈ Opinion.labels (returnLabels watch pattern function v), l.Proper ok := by
  intro l hl
  cases watch with
  | invoked => simp [returnLabels, Opinion.labels] at hl
  | void =>
    simp only [returnLabels, Opinion.labels] at hl
    split at hl
    · obtain rfl := List.mem_singleton.mp hl
      exact .of_text hok (by simp) (by simpa using by decide)
    · simp at hl
  | boolean =>
    simp only [returnLabels, Opinion.labels] at hl
    cases hb : v.boolean? with
    | none => simp [hb] at hl
    | some b =>
      rw [hb] at hl
      obtain rfl := List.mem_singleton.mp hl
      exact .of_text hok (by simp) (by simpa using by decide)
  | integer =>
    simp only [returnLabels] at hl
    split at hl
    · simp [Opinion.labels] at hl
    · rename_i i hi
      split at hl
      · rename_i word text htexts
        obtain rfl := List.mem_singleton.mp hl
        have hword := isText_of_texts hok (hv rfl i hi) htexts
        refine ⟨by simp, ?_⟩
        simp only [isText_append]
        exact ⟨hword, fun c hc => hok c ((by decide : IsLabelText "__") c hc),
          fun c hc => hok c (isLabelText_mangle _ c hc)⟩
      · simp [Opinion.labels] at hl
  | locked =>
    obtain rfl := List.mem_singleton.mp hl
    exact .of_text hok (by simp) (by simpa using by decide)

/-- The labels of calls are proper. -/
lemma FunctionProvider.proper_breakBefore {q : FunctionProvider} {i : Instruction} :
    ∀ l ∈ Opinion.labels (q.breakBefore i), l.Proper ok := by
  intro l hl
  rw [breakBefore] at hl
  split at hl
  · split at hl
    · obtain rfl := List.mem_singleton.mp hl
      exact .of_text hok (by simp) (by simpa using by decide)
    · obtain rfl := List.mem_singleton.mp hl
      exact .of_text hok (by simp) (by simpa using by decide)
    · simp [Opinion.labels] at hl
  · simp [Opinion.labels] at hl

end Proper

/-! ## The providers of a configuration -/

/-- A variable has the signature it has been read from. -/
lemma VariableSpec.signature_of_parse {text : String} {spec : VariableSpec}
    (h : parse text = .ok spec) : spec.signature = trim text := by
  rw [parse] at h
  simp only at h
  split at h
  · simp at h
  · split at h
    · split at h
      · rw [← Except.ok.inj h]
      · simp at h
    · simp at h

namespace Provider

/-- The names of the watched classes are not empty. -/
def Configured : Provider → Prop
  | .thrown types => ∀ t ∈ types, t ≠ ""
  | _ => True

/-- What has been read from a list was read from entries of it. -/
lemma exists_of_readAll {α : Type} {read : String → Except ConfigFault α} :
    ∀ {texts : List String} {as : List α}, readAll read texts = .ok as →
      ∀ a ∈ as, ∃ text, read text = .ok a := by
  intro texts
  induction texts with
  | nil =>
    intro as h a ha
    obtain rfl := Except.ok.inj h
    simp at ha
  | cons text texts ih =>
    intro as h a ha
    rw [readAll] at h
    split at h
    · simp at h
    · rename_i b hb
      split at h
      · simp at h
      · rename_i bs hbs
        obtain rfl := Except.ok.inj h
        rcases List.mem_cons.mp ha with rfl | ha
        · exact ⟨text, hb⟩
        · exact ih hbs a ha

/-- What a configuration names as a class is not empty. -/
lemma ne_empty_of_exceptionName {text t : String} (h : exceptionName text = .ok t) : t ≠ "" := by
  rintro rfl
  rw [exceptionName] at h
  split at h
  · rename_i hd
    obtain rfl := Except.ok.inj h
    exact absurd hd (by decide +kernel)
  · simp at h

/-- Every provider that a configuration names is configured. -/
lemma configured_of_ofTargets {k : ProviderKind} {targets : List String} {p : Provider}
    (h : ofTargets k targets = .ok p) : p.Configured := by
  cases p with
  | thrown types =>
    cases k with
    | thrown =>
      rw [ofTargets] at h
      cases hr : readAll exceptionName targets with
      | error f => simp [hr, Except.map] at h
      | ok names =>
        simp only [hr, Except.map, Except.ok.injEq, Provider.thrown.injEq] at h
        subst h
        intro t ht
        obtain ⟨text, htext⟩ := exists_of_readAll hr t ht
        exact ne_empty_of_exceptionName htext
    | initial | final | allDifferent => simp [ofTargets] at h
    | _ =>
      simp only [ofTargets, Except.map] at h
      split at h <;> simp at h
  | _ => trivial

section Configured

variable {ok : Char → Prop} (hok : ∀ c, isLabelChar c = true → ok c)

/-- What a provider writes of the values of fields in a scene consists of certain characters. -/
def Clear (ok : Char → Prop) (s : Scene) : Provider → Prop
  | .field q => q.Worded ok s
  | _ => True

/-- What a provider writes of the value of a complete return consists of certain characters. -/
def Returns (ok : Char → Prop) (i : Instruction) : Provider → Prop
  | .function q => q.watch = .integer → (i.isReturn && i.returned) = true →
      (q.matching? i.function).isSome → i.returnValue.Worded ok
  | _ => True

include hok

/-- The labels of raises of watched classes are proper. -/
lemma proper_thrownLabels {types : List String} (ht : ∀ t ∈ types, t ≠ "") {i : Instruction} :
    ∀ l ∈ (thrownLabels types i).getD [], l.Proper ok := by
  intro l hl
  rw [thrownLabels] at hl
  split at hl
  · split at hl
    · rename_i t _
      split at hl
      · rename_i hmem
        obtain rfl := List.mem_singleton.mp hl
        have hne : t.text ≠ "" := ht t.text (by simpa using hmem)
        exact .of_text hok (mangle_ne_empty hne) (isLabelText_mangle t.text)
      · simp at hl
    · simp at hl
  · simp at hl

/-- The labels that a provider names in a state are proper. -/
lemma proper_stateLabels (view : View) {p : Provider} (hp : p.Clear ok view.scene) :
    ∀ l ∈ Opinion.labels (LabelProvider.stateLabels view p).2, l.Proper ok := by
  intro l hl
  cases p with
  | initial pending =>
    cases pending with
    | false => simp [LabelProvider.stateLabels, stateLabels, Opinion.labels] at hl
    | true =>
      obtain rfl := List.mem_singleton.mp hl
      exact .of_text hok (by decide) (by decide)
  | final =>
    simp only [LabelProvider.stateLabels, stateLabels, Opinion.labels] at hl
    split at hl
    · obtain rfl := List.mem_singleton.mp hl
      exact .of_text hok (by decide) (by decide)
    · simp at hl
  | allDifferent count =>
    obtain rfl := List.mem_singleton.mp hl
    refine .of_text hok (by simp) ?_
    rw [isLabelText_append]
    exact ⟨by decide, isLabelText_repr count⟩
  | field q =>
    simp only [LabelProvider.stateLabels, stateLabels, FieldProvider.stateLabels] at hl
    split at hl
    · rename_i ls hls
      exact FieldProvider.proper_labelsOf hok hp (List.Subset.refl _) hls l hl
    · simp [Opinion.labels] at hl
  | «variable» q => exact VariableProvider.proper_labelsOf hok l hl
  | function q => exact absurd hl List.not_mem_nil
  | thrown types => exact absurd hl List.not_mem_nil

/-- The labels that a configured provider names after an instruction are proper. -/
lemma Configured.proper_breakAfter {p : Provider} (hp : p.Configured) (s : Scene)
    {i : Instruction} (hi : p.Returns ok i) :
    ∀ l ∈ Opinion.labels (LabelProvider.breakAfter s i p).2, l.Proper ok := by
  intro l hl
  cases p with
  | field q =>
    simp only [LabelProvider.breakAfter, breakAfter, FieldProvider.breakAfter] at hl
    split at hl <;> simp [Opinion.labels] at hl
  | «variable» q =>
    simp only [LabelProvider.breakAfter, breakAfter, VariableProvider.breakAfter,
      Opinion.labels] at hl
    split at hl <;> simp at hl
  | function q =>
    simp only [LabelProvider.breakAfter, breakAfter, FunctionProvider.breakAfter] at hl
    split at hl
    · rename_i hreturn
      split at hl
      · rename_i hspec
        exact FunctionProvider.proper_returnLabels hok
          (fun hwatch => hi hwatch hreturn (by rw [hspec]; rfl)) l hl
      · simp [Opinion.labels] at hl
    · simp [Opinion.labels] at hl
  | thrown types => exact proper_thrownLabels hok hp l hl
  | _ => exact absurd hl List.not_mem_nil

/-- The labels that a provider names before an instruction are proper. -/
lemma proper_breakBefore (s : Scene) (i : Instruction) (p : Provider) :
    ∀ l ∈ Opinion.labels (LabelProvider.breakBefore s i p).2, l.Proper ok := by
  cases p with
  | function q => exact FunctionProvider.proper_breakBefore hok
  | _ => exact fun l hl => absurd hl List.not_mem_nil

omit hok in
/-- A configured provider that is shown certain scenes and instructions only, of which what it writes
consists of certain characters. -/
structure Trusted (ok : Char → Prop) (shown : Scene → Prop) (ran : Instruction → Prop)
    (p : Provider) : Prop where
  configured : p.Configured
  clear : ∀ s, shown s → p.Clear ok s
  returns : ∀ i, ran i → p.Returns ok i

/-- The labels that a trusted provider names are proper, and it stays trusted.

**Proof sketch.** One case for each kind of provider and each question that it is asked. -/
theorem upholds (shown : Scene → Prop) (ran : Instruction → Prop) :
    LabelProvider.Upholds shown ran (Trusted ok shown ran) (Label.Proper ok) where
  states view p hs hp := by
    refine ⟨?_, proper_stateLabels hok view (hp.clear _ hs)⟩
    cases p <;> exact ⟨hp.configured, hp.clear, hp.returns⟩
  before s i p hp := by
    cases p <;> exact ⟨hp.configured, hp.clear, hp.returns⟩
  after s i p hi hp := by
    refine ⟨?_, hp.configured.proper_breakAfter hok s (hp.returns i hi)⟩
    cases p <;> exact ⟨hp.configured, hp.clear, hp.returns⟩
  next s i p hp := by
    refine ⟨?_, proper_breakBefore hok s i p⟩
    cases p <;> exact ⟨hp.configured, hp.clear, hp.returns⟩

end Configured

end Provider

end StateAtlas
