import StateAtlas.Proofs.Data.Bindings
import StateAtlas.Proofs.Label.Provenance
import StateAtlas.Proofs.Provider.Naming

set_option autoImplicit false

/-!
# Where the labels of unbound variables come from

A provider for local variables labels a state by the value of a variable that has just left its
scope. The value was noted when an instruction was announced, and retained when one that returns or
deletes was said to have run. It is dropped when the next instruction is announced, or when the next
new state is labelled. A known state is not labelled and a restored choice announces no instruction,
so that a retained value may label a state on another path.

## Main definitions

* `StateAtlas.Log.Note` — the instruction that was announced last, about to change a variable.
* `StateAtlas.Log.Departure` — how a variable has left its scope since the last new state.
* `StateAtlas.VariableProvider.Recalls` — what a provider remembers has happened in a log.

## Main results

* `StateAtlas.VariableProvider.recalls_informed` — a provider of a configuration remembers nothing
  that has not happened.
* `StateAtlas.Exploration.retained_label_provenance` — a variable that is not bound is labelled by
  its value before it left its scope; without a restored choice the instruction that took it out is
  the last one on the path.
* `StateAtlas.Exploration.retained_label_crossed` — after a restored choice it need not be on the
  path at all.
-/

namespace StateAtlas

variable {σ L κ : Type}

/-! ## The signatures of variables -/

/-- A signature says everything about a variable. -/
lemma VariableSpec.eq_of_parse {text text' : String} {spec spec' : VariableSpec}
    (h : parse text = .ok spec) (h' : parse text' = .ok spec')
    (heq : spec.signature = spec'.signature) : spec = spec' := by
  have htrim : trim text = trim text' :=
    (signature_of_parse h).symm.trans (heq.trans (signature_of_parse h'))
  rw [parse, htrim, ← parse, h'] at h
  exact (Except.ok.inj h).symm

namespace VariableProvider

/-- A provider that has seen nothing yet, whose signatures tell its variables apart. -/
structure Fresh (q : VariableProvider) : Prop where
  before : q.before = .empty
  retained : q.retained = .empty
  distinct : ∀ spec ∈ q.watched, ∀ spec' ∈ q.watched,
    spec.signature = spec'.signature → spec = spec'

/-- So is every provider that a configuration names. -/
lemma fresh_of_ofTargets {k : ProviderKind} {targets : List String} {q : VariableProvider}
    (h : Provider.ofTargets k targets = .ok (.variable q)) : q.Fresh := by
  have fresh : ∀ {boolean : Bool}, ((Provider.readAll VariableSpec.parse targets).map fun specs =>
      Provider.variable ⟨boolean, specs, .empty, .empty⟩) = .ok (.variable q) → q.Fresh := by
    intro boolean h
    cases hr : Provider.readAll VariableSpec.parse targets with
    | error f => simp [hr, Except.map] at h
    | ok specs =>
      simp only [hr, Except.map, Except.ok.injEq, Provider.variable.injEq] at h
      subst h
      refine ⟨rfl, rfl, fun spec hs spec' hs' heq => ?_⟩
      obtain ⟨text, ht⟩ := Provider.exists_of_readAll hr spec hs
      obtain ⟨text', ht'⟩ := Provider.exists_of_readAll hr spec' hs'
      exact VariableSpec.eq_of_parse ht ht' heq
  cases k with
  | booleanVariable => exact fresh h
  | positiveVariable => exact fresh h
  | initial | final | allDifferent => simp [Provider.ofTargets] at h
  | _ =>
    simp only [Provider.ofTargets, Except.map] at h
    split at h <;> simp at h

end VariableProvider

/-! ## What a provider remembers -/

namespace Log

/-- The instruction that was announced last, if it may change a variable. -/
structure Note (spec : VariableSpec) (log : Log) where
  later : Log
  call : Delivery
  instruction : Instruction
  earlier : Log
  split : log = later ++ call :: earlier
  announced : call.notice = .executing instruction
  last : ∀ d ∈ later, ∀ i, d.notice ≠ .executing i
  covers : spec.function.covers instruction.function = true
  touches : VariableProvider.touches spec instruction = true

variable {spec : VariableSpec} {log : Log}

namespace Note

/-- What the variable was when the instruction was announced. -/
def value? (t : Note spec log) : Option Value :=
  t.call.view.scene.local? t.instruction.frame spec.name

/-- An instruction that has just been announced. -/
def here {d : Delivery} {i : Instruction} (h : d.notice = .executing i)
    (hc : spec.function.covers i.function = true) (ht : VariableProvider.touches spec i = true) :
    Note spec (d :: log) :=
  ⟨[], d, i, log, rfl, h, by simp, hc, ht⟩

/-- It stays the last one until another one is announced. -/
def extend (t : Note spec log) {d : Delivery} (h : ∀ i, d.notice ≠ .executing i) :
    Note spec (d :: log) where
  later := d :: t.later
  call := t.call
  instruction := t.instruction
  earlier := t.earlier
  split := congrArg (d :: ·) t.split
  announced := t.announced
  last := List.forall_mem_cons.mpr ⟨h, t.last⟩
  covers := t.covers
  touches := t.touches

end Note

/-- A variable has left its scope: an instruction that returns or deletes it has run, and it was
bound when the last instruction was announced. Neither has a new state been reached since, nor an
instruction been announced. -/
structure Departure (spec : VariableSpec) (log : Log) where
  later : Log
  step : Delivery
  instruction : Instruction
  next : Option Instruction
  earlier : Log
  split : log = later ++ step :: earlier
  ran : step.notice = .executed instruction next
  keeps : instruction.stores spec.name = false
  leaves : instruction.isReturn = true ∨ instruction.deletes spec.name = true
  note : Note spec earlier
  value : Value
  bound : note.value? = some value
  last : ∀ d ∈ later, (∀ i, d.notice ≠ .executing i) ∧ ¬discovers d

namespace Departure

/-- It is the last one until an instruction is announced or a new state is reached. -/
def extend (t : Departure spec log) {d : Delivery} (h : ∀ i, d.notice ≠ .executing i)
    (hd : ¬discovers d) : Departure spec (d :: log) where
  later := d :: t.later
  step := t.step
  instruction := t.instruction
  next := t.next
  earlier := t.earlier
  split := congrArg (d :: ·) t.split
  ran := t.ran
  keeps := t.keeps
  leaves := t.leaves
  note := t.note
  value := t.value
  bound := t.bound
  last := List.forall_mem_cons.mpr ⟨⟨h, hd⟩, t.last⟩

/-- Without a restored choice nothing has run since, and the search has not moved. -/
lemma isIdle_of_underway (t : Departure spec log) (hreg : Regular log) (hu : underway log = true)
    (hr : ∀ d ∈ t.later, d.notice ≠ .restored) : ∀ d ∈ t.later, isIdle d.notice = true := by
  intro d hd
  obtain ⟨hback, -, hfresh⟩ := undivided_of_underway (t.split ▸ hu) hr d hd
  obtain ⟨hcall, hnew⟩ := t.last d hd
  cases hn : d.notice with
  | advanced => exact absurd ⟨hn, hfresh hn⟩ hnew
  | backtracked => exact absurd hn hback
  | executed i next =>
    -- an instruction would have been announced in between
    obtain ⟨newer, between, hlater⟩ := List.append_of_mem hd
    have hs : d :: (between ++ t.step :: t.earlier) <:+ log :=
      ⟨newer, by simpa [hlater] using t.split.symm⟩
    have hmem : ∀ e ∈ between, e ∈ t.later := fun e he => by
      rw [hlater]
      exact List.mem_append_right _ (List.mem_cons_of_mem d he)
    obtain ⟨e, he, j, hj⟩ := (hreg d _ hs).separated hn t.ran fun e he => hr e (hmem e he)
    exact absurd hj ((t.last e (hmem e he)).1 j)
  | _ => rfl

/-- So the instruction that took the variable out of its scope is the last one on the way. -/
lemma getLast?_executed (t : Departure spec log) (h : ∀ d ∈ t.later, isIdle d.notice = true) :
    (executed log).getLast? = some (t.instruction, t.next) := by
  rw [congrArg executed t.split, executed_append h]
  exact Log.getLast?_executed t.ran

/-- It is the one before which the variable was noted, with its effects, if no choice has been
restored in between. -/
lemma exists_effects (t : Departure spec log) (hreg : Regular log)
    (hr : ∀ d ∈ t.note.later, d.notice ≠ .restored) :
    ∃ es, t.instruction = List.foldl Instruction.apply t.note.instruction es := by
  have hs : t.step :: t.earlier <:+ log := ⟨t.later, t.split.symm⟩
  have hadmits := hreg _ _ hs
  rw [t.note.split] at hadmits
  exact (hadmits.concluded t.ran t.note.announced t.note.last hr).1

end Departure

end Log

namespace VariableProvider

open LabelProvider

/-- What a provider remembers has happened. -/
structure Recalls (q : VariableProvider) (log : Log) (p : VariableProvider) : Prop where
  boolean : p.boolean = q.boolean
  watched : p.watched = q.watched
  before : ∀ spec ∈ q.watched, ∀ v, p.before.get? spec.signature = some v →
    ∃ t : Log.Note spec log, t.value? = v
  retained : ∀ spec ∈ q.watched, ∀ r, p.retained.get? spec.signature = some r →
    ∃ t : Log.Departure spec log, r = ⟨t.instruction.function, t.value⟩

variable {q p : VariableProvider} {log : Log} {d : Delivery}

lemma Recalls.of_fresh (h : q.Fresh) : q.Recalls [] q :=
  ⟨rfl, rfl, fun spec _ v hv => by simp [h.before, Bindings.empty, Bindings.get?, Bindings.find?] at hv,
    fun spec _ r hr => by simp [h.retained, Bindings.empty, Bindings.get?, Bindings.find?] at hr⟩

/-- A notice that is nothing to the provider. -/
lemma Recalls.idle (h : q.Recalls log p) (hn : ∀ i, d.notice ≠ .executing i)
    (hd : ¬Log.discovers d) : q.Recalls (d :: log) p where
  boolean := h.boolean
  watched := h.watched
  before spec hs v hv := by
    obtain ⟨t, ht⟩ := h.before spec hs v hv
    exact ⟨t.extend hn, ht⟩
  retained spec hs r hr := by
    obtain ⟨t, ht⟩ := h.retained spec hs r hr
    exact ⟨t.extend hn hd, ht⟩

/-- Labelling a state uses up what is retained of the variables, and changes nothing else. -/
lemma labelsOf_fst (view : View) : ∀ (specs : List VariableSpec) (p : VariableProvider),
    ∃ kept, (labelsOf view specs p).1 = { p with retained := kept } ∧
      ∀ k r, kept.get? k = some r →
        (∀ spec ∈ specs, k ≠ spec.signature) ∧ p.retained.get? k = some r := by
  intro specs
  induction specs with
  | nil => exact fun p => ⟨p.retained, rfl, fun k r h => ⟨by simp, h⟩⟩
  | cons spec specs ih =>
    intro p
    obtain ⟨kept, hp, hkept⟩ := ih (p.lookup view spec).1
    refine ⟨kept, hp, fun k r h => ?_⟩
    obtain ⟨hne, h⟩ := hkept k r h
    obtain ⟨hk, h⟩ := Bindings.get?_erase_eq_some_iff.mp h
    exact ⟨List.forall_mem_cons.mpr ⟨hk, hne⟩, h⟩

/-- At a state that is labelled. -/
lemma Recalls.label (h : q.Recalls log p) (view : View) (hn : ∀ i, d.notice ≠ .executing i) :
    q.Recalls (d :: log) (labelsOf view p.watched p).1 := by
  obtain ⟨kept, hp, hkept⟩ := labelsOf_fst view p.watched p
  rw [hp]
  refine ⟨h.boolean, h.watched, fun spec hs v hv => ?_, fun spec hs r hr => ?_⟩
  · obtain ⟨t, ht⟩ := h.before spec hs v hv
    exact ⟨t.extend hn, ht⟩
  · exact absurd rfl ((hkept _ r hr).1 spec (h.watched ▸ hs))

/-- Before an instruction. -/
lemma Recalls.prepare (h : q.Recalls log p) (hq : q.Fresh) {i : Instruction}
    (hn : d.notice = .executing i) :
    q.Recalls (d :: log) (p.beforeInstruction d.view.scene i) := by
  refine ⟨h.boolean, h.watched, fun spec hs v hv => ?_, fun spec hs r hr => ?_⟩
  · have hmem := Bindings.of_get?_ofList hv
    simp only [List.mem_map, List.mem_filter, Prod.mk.injEq, Bool.and_eq_true, h.watched] at hmem
    obtain ⟨spec', ⟨hs', hc, ht⟩, hsig, rfl⟩ := hmem
    obtain rfl := hq.distinct spec' hs' spec hs hsig
    exact ⟨.here hn hc ht, rfl⟩
  · simp [beforeInstruction, Bindings.empty, Bindings.get?, Bindings.find?] at hr

/-- What is retained was noted before an instruction that returns or deletes. -/
lemma of_change {s : Scene} {i : Instruction} {spec : VariableSpec} {r : Retained}
    (h : (p.change s i spec).2 = some r) :
    p.before.get? spec.signature = some (some r.value) ∧ i.stores spec.name = false ∧
      (i.isReturn = true ∨ i.deletes spec.name = true) ∧ r.function = i.function := by
  rw [change] at h
  split at h
  · simp at h
  · rename_i before hb
    split at h
    · simp at h
    · rename_i hstore
      split at h
      · rename_i hleave
        split at h
        · split at h
          · obtain rfl := Option.some.inj h
            exact ⟨hb, by simpa using hstore, by simpa using hleave, rfl⟩
          · simp at h
        · simp at h
      · simp at h

/-- After an instruction. -/
lemma Recalls.step (h : q.Recalls log p) (hq : q.Fresh) {i : Instruction}
    {next : Option Instruction} (hn : d.notice = .executed i next) :
    q.Recalls (d :: log) (p.breakAfter d.view.scene i).1 := by
  have hne : ∀ j, d.notice ≠ .executing j := by simp [hn]
  have hold := h.idle hne (by simp [Log.discovers, hn])
  refine ⟨h.boolean, h.watched, hold.before, fun spec hs r hr => ?_⟩
  rcases Bindings.of_get?_setAll hr with hr | hr
  · simp only [List.filterMap_map, List.mem_filterMap, Function.comp_apply, Option.map_eq_some_iff,
      Prod.mk.injEq, h.watched] at hr
    obtain ⟨spec', hs', r', hr', hsig, rfl⟩ := hr
    obtain rfl := hq.distinct spec' hs' spec hs hsig
    obtain ⟨hb, hstore, hleave, hf⟩ := of_change hr'
    obtain ⟨t, ht⟩ := h.before spec' hs' _ hb
    exact ⟨⟨[], d, i, next, log, rfl, hn, hstore, hleave, t, r'.value, ht, by simp⟩, by rw [← hf]⟩
  · exact hold.retained spec hs r hr

/-- A provider of a configuration remembers nothing that has not happened. -/
theorem recalls_informed (hq : q.Fresh) (log : Log) :
    ∃ p, informed (Provider.variable q) log = .variable p ∧ q.Recalls log p := by
  induction log with
  | nil => exact ⟨q, rfl, .of_fresh hq⟩
  | cons d log ih =>
    obtain ⟨p, hp, h⟩ := ih
    rw [informed, hp, inform]
    cases hn : d.notice with
    | started => exact ⟨_, rfl, h.label d.view (by simp [hn])⟩
    | advanced =>
      by_cases hnew : d.view.isNew = true
      · simp only [if_pos hnew]
        exact ⟨_, rfl, h.label d.view (by simp [hn])⟩
      · simp only [if_neg hnew]
        exact ⟨p, rfl, h.idle (by simp [hn]) fun hd => hnew hd.2⟩
    | executing i => exact ⟨_, rfl, h.prepare hq hn⟩
    | executed i next =>
      refine ⟨_, ?_, h.step hq hn⟩
      cases next <;> rfl
    | backtracked => exact ⟨p, rfl, h.idle (by simp [hn]) (by simp [Log.discovers, hn])⟩
    | restored => exact ⟨p, rfl, h.idle (by simp [hn]) (by simp [Log.discovers, hn])⟩
    | constraintHit => exact ⟨p, rfl, h.idle (by simp [hn]) (by simp [Log.discovers, hn])⟩
    | finished => exact ⟨p, rfl, h.idle (by simp [hn]) (by simp [Log.discovers, hn])⟩

/-- The label of one variable. -/
def labelOf? (p : VariableProvider) (view : View) (spec : VariableSpec) : Option Label :=
  (p.lookup view spec).2.bind fun (function, v) => p.label? spec function v

/-- A variable that is not bound is labelled by what is retained of it. -/
lemma labelOf?_of_unbound {view : View} {spec : VariableSpec}
    (h : spec.find? view.scene view.top = none) : p.labelOf? view spec =
      (p.retained.get? spec.signature).bind fun r => p.label? spec r.function r.value := by
  rw [labelOf?, lookup, h]
  cases p.retained.get? spec.signature <;> rfl

/-- The label of a variable after another one has been labelled was its label before. -/
lemma labelOf?_lookup {view : View} {spec spec' : VariableSpec} {l : Label}
    (h : (p.lookup view spec').1.labelOf? view spec = some l) : p.labelOf? view spec = some l := by
  cases hf : spec.find? view.scene view.top with
  | some found =>
    rw [labelOf?, lookup, hf] at h ⊢
    exact h
  | none =>
    rw [labelOf?_of_unbound hf, Option.bind_eq_some_iff] at h ⊢
    obtain ⟨r, hr, hl⟩ := h
    exact ⟨r, (Bindings.get?_erase_eq_some_iff.mp hr).2, hl⟩

/-- Every label of a state is that of a variable. -/
lemma exists_of_mem_labelsOf {view : View} {l : Label} : ∀ {specs : List VariableSpec}
    {p : VariableProvider}, l ∈ (labelsOf view specs p).2 →
      ∃ spec ∈ specs, p.labelOf? view spec = some l := by
  intro specs
  induction specs with
  | nil => simp [labelsOf]
  | cons spec specs ih =>
    intro p h
    rw [labelsOf] at h
    rcases List.mem_append.mp h with h | h
    · exact ⟨spec, List.mem_cons_self, Option.mem_toList.mp h⟩
    · obtain ⟨spec', hs, hl⟩ := ih h
      exact ⟨spec', List.mem_cons_of_mem _ hs, labelOf?_lookup hl⟩

/-- The label of a value depends on the kind of the variables alone. -/
lemma label?_congr (h : p.boolean = q.boolean) (spec : VariableSpec) (function : String)
    (v : Value) : p.label? spec function v = q.label? spec function v := by
  rw [label?, label?, interpret?, interpret?, h]

end VariableProvider

/-! ## The labels of a search -/

/-- The variable of `f`, which is what `f` returns. -/
def diceVariable : VariableSpec := ⟨"dice.f:x", ⟨"dice.f"⟩, "x"⟩

/-- A provider that labels the variable of `f`. -/
def diceVariables : VariableProvider := ⟨true, [diceVariable], .empty, .empty⟩

/-- What the provider names for the variable of `f` at a delivery, the given number before the last
one, if the variable is not bound there. -/
def diceLabel? (n ago : Nat) : Option Label :=
  match (diceLog [.variable diceVariables] n).drop ago with
  | [] => none
  | d :: earlier =>
    match LabelProvider.informed (Provider.variable diceVariables) earlier,
      diceVariable.find? d.view.scene d.view.top with
    | .variable p, none => p.labelOf? d.view diceVariable
    | _, _ => none

lemma exists_of_diceLabel? {n ago : Nat} {l : Label} (h : diceLabel? n ago = some l) :
    ∃ d earlier p, (diceLog [.variable diceVariables] n).drop ago = d :: earlier ∧
      LabelProvider.informed (Provider.variable diceVariables) earlier = .variable p ∧
        diceVariable.find? d.view.scene d.view.top = none ∧
          p.labelOf? d.view diceVariable = some l := by
  rw [diceLabel?] at h
  split at h
  · simp at h
  · rename_i d earlier hlog
    split at h
    · rename_i p hp hunbound
      exact ⟨d, earlier, p, hlog, hp, hunbound, h⟩
    · simp at h

namespace Exploration

open LabelProvider

variable {Q : Program σ κ} {A : Audience L} [DecidableEq κ] {name : String}
  {depthLimit maxStates : Option Int} {outside : Scene} {l₀ : L}

/-- The labels that a provider of a configuration names for a new state are those of its variables.
A variable that is not bound is labelled by the value it had when the last instruction before its
departure was announced. Unless a choice has been restored, that instruction is the one that took
the variable out of its scope; and it is the last one on the way to the state, unless a choice has
been restored since.

**Proof sketch.** The provider remembers nothing that has not happened. An execution is under way at
the new state: without a restored choice, no other instruction can have run since without having
been announced, and what was retained would have been dropped. -/
theorem retained_label_provenance {k : ProviderKind} {targets : List String} {q : VariableProvider}
    (hq : Provider.ofTargets k targets = .ok (.variable q)) {n : Nat} {d : Delivery} {earlier : Log}
    (hlog : d :: earlier <:+
      (after Q A.recorded n (fresh name depthLimit maxStates outside l₀)).search.listeners.2)
    (hd : Log.discovers d) :
    ∃ p, informed (Provider.variable q) earlier = .variable p ∧
      (∀ l ∈ names d.view (Provider.variable p),
        ∃ spec ∈ q.watched, p.labelOf? d.view spec = some l) ∧
      ∀ spec ∈ q.watched, spec.find? d.view.scene d.view.top = none →
        ∀ l, p.labelOf? d.view spec = some l → ∃ t : Log.Departure spec earlier,
          q.label? spec t.instruction.function t.value = some l ∧
            ((∀ y ∈ t.note.later, y.notice ≠ .restored) →
              ∃ es, t.instruction = List.foldl Instruction.apply t.note.instruction es) ∧
            ((∀ y ∈ t.later, y.notice ≠ .restored) →
              (Log.executed earlier).getLast? = some (t.instruction, t.next)) := by
  have hfresh := VariableProvider.fresh_of_ofTargets hq
  obtain ⟨p, hp, hrec⟩ := VariableProvider.recalls_informed hfresh earlier
  have hreg : Log.Regular
      (after Q A.recorded n (fresh name depthLimit maxStates outside l₀)).search.listeners.2 :=
    regular_after n
  have hlive := (hreg d earlier hlog).lively (by simp [Log.isLively, hd.1])
  have hreg := hreg.of_suffix ((List.suffix_cons d earlier).trans hlog)
  refine ⟨p, hp, fun l hl => ?_, fun spec hs hunbound l hl => ?_⟩
  · rw [← hrec.watched]
    exact VariableProvider.exists_of_mem_labelsOf hl
  · rw [VariableProvider.labelOf?_of_unbound hunbound, Option.bind_eq_some_iff] at hl
    obtain ⟨r, hr, hl⟩ := hl
    obtain ⟨t, rfl⟩ := hrec.retained spec hs r hr
    exact ⟨t, by rwa [← VariableProvider.label?_congr hrec.boolean], t.exists_effects hreg,
      fun h => t.getLast?_executed (t.isIdle_of_underway hreg hlive h)⟩

/-- After `f` has returned, the state is labelled by the variable of `f`, and the last instruction on
the way has returned. -/
theorem retained_label_provenance_dice :
    ∃ d earlier, d :: earlier <:+ diceLog [.variable diceVariables] 7 ∧ Log.discovers d ∧
      ∃ t : Log.Departure diceVariable earlier,
        diceVariables.label? diceVariable t.instruction.function t.value =
          some ⟨"false__dice_f__x", "dice.f:x = False"⟩ ∧
        ((∀ y ∈ t.later, y.notice ≠ .restored) →
          (Log.executed earlier).getLast? = some (t.instruction, t.next)) := by
  have hlabel : diceLabel? 7 1 = some ⟨"false__dice_f__x", "dice.f:x = False"⟩ := by
    decide +kernel
  have hread : ((diceLog [.variable diceVariables] 7).drop 1).head?.map (fun d =>
      (EventKind.ofNotice? d.notice, d.view.isNew)) = some (some .advanced, true) := by
    decide +kernel
  obtain ⟨d, earlier, p, hlog, hp, hunbound, hl⟩ := exists_of_diceLabel? hlabel
  simp only [hlog, List.head?_cons, Option.map_some, Option.some.injEq, Prod.mk.injEq] at hread
  have hs : d :: earlier <:+ diceLog [.variable diceVariables] 7 := hlog ▸ List.drop_suffix 1 _
  have hd : Log.discovers d := ⟨notice_of_kind hread.1, hread.2⟩
  have hq : Provider.ofTargets .booleanVariable ["dice.f:x"] = .ok (.variable diceVariables) := rfl
  obtain ⟨p', hp', -, hret⟩ := retained_label_provenance hq hs hd
  obtain rfl : p = p' := Provider.variable.inj (hp.symm.trans hp')
  obtain ⟨t, ht, -, hlast⟩ := hret diceVariable (List.mem_singleton_self _) hunbound _ hl
  exact ⟨d, earlier, hs, hd, t, ht, hlast⟩

/-- A retained value may cross to another path: the state in which the second die is thrown after
the first one has shown something is labelled by the variable of `f`, though nothing has run on the
way to it. -/
theorem retained_label_crossed : ¬∀ d earlier p l,
    d :: earlier <:+ diceLog [.variable diceVariables] 18 → Log.discovers d →
      informed (Provider.variable diceVariables) earlier = .variable p →
        diceVariable.find? d.view.scene d.view.top = none →
          p.labelOf? d.view diceVariable = some l → ∃ i next,
            (Log.executed earlier).getLast? = some (i, next) ∧
              (i.isReturn = true ∨ i.deletes diceVariable.name = true) := by
  intro h
  have hlabel : diceLabel? 18 0 = some ⟨"true__dice_f__x", "dice.f:x = True"⟩ := by decide +kernel
  have hread : (diceLog [.variable diceVariables] 18).head?.map (fun d =>
        (EventKind.ofNotice? d.notice, d.view.isNew)) = some (some .advanced, true) ∧
      (Log.executed (diceLog [.variable diceVariables] 18).tail).length = 0 := by
    decide +kernel
  obtain ⟨d, earlier, p, hlog, hp, hunbound, hl⟩ := exists_of_diceLabel? hlabel
  rw [List.drop_zero] at hlog
  simp only [hlog, List.head?_cons, Option.map_some, Option.some.injEq, Prod.mk.injEq,
    List.tail_cons, List.length_eq_zero_iff] at hread
  obtain ⟨⟨hkind, hnew⟩, hnone⟩ := hread
  obtain ⟨i, next, hlast, -⟩ := h d earlier p _ (hlog ▸ List.suffix_refl _)
    ⟨notice_of_kind hkind, hnew⟩ hp hunbound hl
  simp [hnone] at hlast

end Exploration

end StateAtlas
