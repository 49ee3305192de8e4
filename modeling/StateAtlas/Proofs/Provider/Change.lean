import StateAtlas.Proofs.Data.Bindings
import StateAtlas.Proofs.Label.Gathering
import StateAtlas.Proofs.Label.Lab
import StateAtlas.Provider.Basic

set_option autoImplicit false

/-!
# When a watched field changes

A provider for fields notes what the fields say that an instruction may store to, right before the
instruction runs. Right after it has run the provider asks for a boundary if one of these fields has
another value then, or has lost or gained one. The labels of the fields tell these values, but for
integers that are too long to be written, or that are written as a text of their own. Nothing that is
delivered in between makes the provider forget what it has noted.

## Main definitions

* `StateAtlas.FieldProvider.report?` — the label of a field, if there is one.
* `StateAtlas.FieldProvider.Writable` — what a field says is not too long to be written.
* `StateAtlas.FieldProvider.Plain` — what a field says is written as what it is.
* `StateAtlas.FieldProvider.Alters` — an instruction changes the value of a field it stores to.
* `StateAtlas.FieldProvider.Changes` — an instruction changes the label of a field it stores to.

## Main results

* `StateAtlas.FieldReading.eq_of_texts` — a text tells what a field says.
* `StateAtlas.FieldProvider.breakAfter_beforeInstruction` — a boundary is wanted if and only if a
  value changes.
* `StateAtlas.FieldProvider.alters_iff_changes` — this is so if and only if a label changes.
* `StateAtlas.LabelProvider.informed_announced` — what has been noted of the last instruction is not
  forgotten.
-/

namespace StateAtlas

/-! ## Labels of fields -/

/-- The text of an integer is read as the integer. -/
lemma readId?_of_integerText? {i : Int} {text : String} (h : integerText? i = some text) :
    Lab.readId? text = some i := by
  -- the bound on the number of digits is not to be computed
  rw [integerText?] at h
  generalize Nat.pow 10 digitLimit = bound at h
  split at h
  · obtain rfl := Option.some.inj h
    exact Lab.readId?_toString i
  · simp at h

/-- What is written of a reading is what it says: an integer has no text by itself. -/
def FieldReading.IsPlain (r : FieldReading) : Prop := r.plain = r

/-- The text of what a field says tells what it says, if it is written as what it is. -/
lemma FieldReading.eq_of_texts {r r' : FieldReading} (hr : r.IsPlain) (hr' : r'.IsPlain)
    {word word' text : String} (h : r.texts = .ok (word, text))
    (h' : r'.texts = .ok (word', text)) : r = r' := by
  -- a truth value cannot be read as an integer, and an integer is read as itself
  have boolean : ∀ {b : Bool} {word : String}, (bool b).texts = .ok (word, text) →
      text = booleanText b := fun h => (Prod.mk.inj (Except.ok.inj h)).2.symm
  have integer : ∀ {i : Int} {word : String}, (int i none).texts = .ok (word, text) →
      Lab.readId? text = some i := by
    intro i word h
    delta texts at h
    dsimp only at h
    generalize integerWord? i none = word? at h
    generalize htext : integerText? i = text? at h
    cases word? with
    | none => simp at h
    | some word' =>
      cases text? with
      | none => simp at h
      | some text' =>
        obtain ⟨-, rfl⟩ := Prod.mk.inj (Except.ok.inj h)
        exact readId?_of_integerText? htext
  have unread : ∀ b, Lab.readId? (booleanText b) = none := by decide +kernel
  cases r with
  | bool b =>
    cases r' with
    | bool b' =>
      have hb : booleanText b = booleanText b' := (boolean h).symm.trans (boolean h')
      revert hb
      cases b <;> cases b' <;> decide
    | int i own =>
      obtain rfl : none = own := (int.inj hr').2
      have hi := integer h'
      rw [boolean h, unread] at hi
      simp at hi
  | int i own =>
    obtain rfl : none = own := (int.inj hr).2
    cases r' with
    | bool b' =>
      have hi := integer h
      rw [boolean h', unread] at hi
      simp at hi
    | int i' own' =>
      obtain rfl : none = own' := (int.inj hr').2
      rw [Option.some.inj ((integer h).symm.trans (integer h'))]

/-- The label of a field tells what the field says, if it is written as what it is. -/
lemma FieldProvider.eq_of_label {spec : FieldSpec} {r r' : FieldReading} (hr : r.IsPlain)
    (hr' : r'.IsPlain) {l : Label} (h : label spec r = .ok l) (h' : label spec r' = .ok l) :
    r = r' := by
  have texts : ∀ {r : FieldReading}, label spec r = .ok l →
      ∃ word text, r.texts = .ok (word, text) ∧ l.description = spec.signature ++ " = " ++ text := by
    intro r h
    rw [label] at h
    split at h
    · rename_i word text htexts
      obtain rfl := Except.ok.inj h
      exact ⟨word, text, htexts, rfl⟩
    · simp at h
  obtain ⟨word, text, htexts, htext⟩ := texts h
  obtain ⟨word', text', htexts', htext'⟩ := texts h'
  obtain rfl : text = text' := (String.append_right_inj _).mp (htext.symm.trans htext')
  exact FieldReading.eq_of_texts hr hr' htexts htexts'

namespace FieldProvider

variable {q : FieldProvider} {s before after : Scene} {spec : FieldSpec} {i : Instruction}

/-- The label of a field, if the field says anything; it may be too long to be written. -/
def report? (q : FieldProvider) (s : Scene) (spec : FieldSpec) : Option (Except Fault Label) :=
  (q.current? s spec).map (label spec)

/-- What a field says, if anything, is not too long to be written. -/
def Writable (q : FieldProvider) (s : Scene) (spec : FieldSpec) : Prop :=
  ∀ f, q.report? s spec ≠ some (.error f)

/-- What a field says, if anything, is written as what it is. -/
def Plain (q : FieldProvider) (s : Scene) (spec : FieldSpec) : Prop :=
  ∀ r, q.current? s spec = some r → r.IsPlain

/-- An instruction stores to a watched field that has another value after it than before it, or has
a value only before it, or only after it. -/
def Alters (q : FieldProvider) (before after : Scene) (i : Instruction) : Prop :=
  ∃ spec ∈ q.fields, spec.covers before i = true ∧
    (q.current? after spec).map FieldReading.plain ≠ (q.current? before spec).map FieldReading.plain

/-- An instruction stores to a watched field that has another label after it than before it, or has
a label only before it, or only after it. -/
def Changes (q : FieldProvider) (before after : Scene) (i : Instruction) : Prop :=
  ∃ spec ∈ q.fields, spec.covers before i = true ∧ q.report? after spec ≠ q.report? before spec

/-- A field that is written as what it is says what it says. -/
lemma Plain.map_plain (h : q.Plain s spec) :
    (q.current? s spec).map FieldReading.plain = q.current? s spec := by
  cases hr : q.current? s spec with
  | none => rfl
  | some r => exact congrArg some (h r hr)

/-- A field has the same label if and only if it says the same, unless all it says is too long, or is
not written as what it is. -/
lemma report?_eq_iff (h : q.Writable before spec ∨ q.Writable after spec)
    (hbefore : q.Plain before spec) (hafter : q.Plain after spec) :
    q.report? after spec = q.report? before spec ↔
      q.current? after spec = q.current? before spec := by
  refine ⟨fun heq => ?_, fun heq => by rw [report?, report?, heq]⟩
  have hw : q.Writable after spec := by
    rcases h with h | h
    · rwa [Writable, heq]
    · exact h
  rw [Writable, report?] at hw
  rw [report?, report?] at heq
  cases ha : q.current? after spec with
  | none =>
    rw [ha] at heq
    exact (Option.map_eq_none_iff.mp heq.symm).symm
  | some r =>
    rw [ha] at heq hw
    obtain ⟨r', hb, hlabel⟩ := Option.map_eq_some_iff.mp heq.symm
    rw [hb]
    cases hl : label spec r with
    | error f => exact absurd (congrArg some hl) (hw f)
    | ok l => rw [eq_of_label (hafter r ha) (hbefore r' hb) hl (hlabel.trans hl)]

/-- An instruction changes the value of a field if and only if it changes a label, as far as the
fields it stores to are written as what they are and not too long. -/
lemma alters_iff_changes (h : ∀ spec ∈ q.fields, spec.covers before i = true →
    (q.Writable before spec ∨ q.Writable after spec) ∧ q.Plain before spec ∧ q.Plain after spec) :
    q.Alters before after i ↔ q.Changes before after i := by
  refine exists_congr fun spec => and_congr_right fun hs => and_congr_right fun hcover => ?_
  obtain ⟨hw, hbefore, hafter⟩ := h spec hs hcover
  rw [hbefore.map_plain, hafter.map_plain, ne_eq, ne_eq, report?_eq_iff hw hbefore hafter]

/-- A provider that answers has the label of every field that has one. -/
lemma mem_labelsOf {l : Label} (h : q.report? s spec = some (.ok l)) : ∀ {fields : List FieldSpec}
    {ls : List Label}, spec ∈ fields → q.labelsOf s fields = .ok ls → l ∈ ls := by
  intro fields
  induction fields with
  | nil => simp
  | cons spec' rest ih =>
    intro ls hs hls
    rw [labelsOf] at hls
    split at hls
    · rename_i hnone
      rcases List.mem_cons.mp hs with rfl | hs
      · simp [report?, hnone] at h
      · exact ih hs hls
    · rename_i r hr
      split at hls
      · rename_i hlabel hrest
        obtain rfl := Except.ok.inj hls
        rcases List.mem_cons.mp hs with rfl | hs
        · rw [report?, hr, Option.map_some, hlabel] at h
          rw [Except.ok.inj (Option.some.inj h)]
          exact List.mem_cons_self
        · exact List.mem_cons_of_mem _ (ih hs hrest)
      · simp at hls
      · simp at hls

/-! ## What is noted before an instruction -/

/-- What a field says before an instruction that may store to it is noted. -/
lemma get?_previous (hs : spec ∈ q.fields) (hc : spec.covers s i = true) :
    (q.beforeInstruction s i).previous.get? spec.signature = some (q.current? s spec) := by
  refine Bindings.get?_setAll_of_forall ?_ (.inr ?_)
  · simp only [List.mem_map, forall_exists_index, and_imp]
    rintro e spec' - rfl (heq : spec'.signature = spec.signature)
    simp only [current?, heq]
  · simp only [List.mem_map, List.mem_filter]
    exact ⟨_, ⟨spec, ⟨hs, hc⟩, rfl⟩, rfl⟩

/-- What becomes known of an instruction while it runs does not change what it stores to. -/
lemma covers_effects (spec : FieldSpec) (s : Scene) (es : List Effect) : ∀ i : Instruction,
    spec.covers s (es.foldl Instruction.apply i) = spec.covers s i := by
  induction es with
  | nil => exact fun i => rfl
  | cons e es ih =>
    intro i
    rw [List.foldl_cons, ih]
    cases e <;>
    · rw [Instruction.apply]
      split <;> rfl

/-- Once it has noted what the fields say that an instruction may store to, a provider wants a
boundary after the instruction if and only if the value of one of them changes. The instruction has
to be seen to store to the same fields before and after. -/
theorem breakAfter_beforeInstruction {j : Instruction} {es : List Effect}
    (hi : i = es.foldl Instruction.apply j)
    (hc : ∀ spec ∈ q.fields, spec.covers after i = spec.covers before i) :
    ∃ answer, (q.beforeInstruction before j).breakAfter after i = .ok answer ∧
      (answer.isSome = true ↔ q.Alters before after i) := by
  have hnoted : ∀ spec ∈ q.fields, spec.covers before i = true →
      ((q.beforeInstruction before j).previous.get? spec.signature).join =
        q.current? before spec := by
    intro spec hs hcover
    rw [hi, covers_effects] at hcover
    rw [get?_previous hs hcover]
    rfl
  have hany : ((q.beforeInstruction before j).fields.any fun spec => spec.covers after i &&
      (q.beforeInstruction before j).differs after spec) = true ↔ q.Alters before after i := by
    simp only [List.any_eq_true, Bool.and_eq_true, Alters]
    refine exists_congr fun spec => and_congr_right fun hs => ?_
    rw [hc spec hs]
    refine and_congr_right fun hcover => ?_
    rw [differs, bne_iff_ne, hnoted spec hs hcover]
    rfl
  rw [← hany]
  unfold breakAfter
  split
  · rename_i hwanted
    exact ⟨_, rfl, iff_of_true rfl hwanted⟩
  · rename_i hwanted
    exact ⟨_, rfl, iff_of_false (by simp) hwanted⟩

end FieldProvider

/-! ## What is not forgotten -/

namespace LabelProvider

variable {q : FieldProvider} {d : Delivery} {log between : Log}

/-- Only the announcement of an instruction changes a provider for fields. -/
lemma inform_field (h : ∀ i, d.notice ≠ .executing i) :
    inform d (Provider.field q) = .field q := by
  rw [inform]
  cases hn : d.notice with
  | executing i => exact absurd hn (h i)
  | executed i next => cases next <;> rfl
  | advanced =>
    simp only
    split <;> rfl
  | _ => rfl

/-- A provider for fields keeps its fields. -/
lemma exists_informed_field (q : FieldProvider) (log : Log) :
    ∃ previous, informed (Provider.field q) log = .field { q with previous } := by
  induction log with
  | nil => exact ⟨q.previous, rfl⟩
  | cons d log ih =>
    obtain ⟨previous, ih⟩ := ih
    rw [informed, ih]
    by_cases h : ∃ i, d.notice = .executing i
    · obtain ⟨i, hi⟩ := h
      rw [inform, hi]
      exact ⟨_, rfl⟩
    · exact ⟨previous, inform_field fun i hi => h ⟨i, hi⟩⟩

/-- What a provider for fields has noted of the instruction that was announced last is not
forgotten. -/
lemma informed_announced {i : Instruction} (hd : d.notice = .executing i)
    (hb : ∀ e ∈ between, ∀ j, e.notice ≠ .executing j) :
    informed (Provider.field q) (between ++ d :: log) =
      .field (q.beforeInstruction d.view.scene i) := by
  induction between with
  | nil =>
    obtain ⟨previous, hq⟩ := exists_informed_field q log
    rw [List.nil_append, informed, hq, inform, hd]
    rfl
  | cons e between ih =>
    obtain ⟨he, hb⟩ := List.forall_mem_cons.mp hb
    rw [List.cons_append, informed, ih hb, inform_field he]

end LabelProvider

end StateAtlas
