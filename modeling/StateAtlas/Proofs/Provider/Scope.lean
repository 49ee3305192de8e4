import StateAtlas.Proofs.Data.Bindings
import StateAtlas.Proofs.Label.Retention

set_option autoImplicit false

/-!
# Variables in and out of scope

A provider for local variables can be called in any order. What it remembers of earlier calls is
forgotten when an instruction is announced: afterwards it knows what the variables were that the
instruction may bind, delete or leave behind, and nothing else. Right after an instruction that binds
variables it asks for a boundary if it reads one of them differently; right after one that returns or
deletes it retains the values that it can read, and labels the next state with those of them that are
bound nowhere on the stack.

## Main definitions

* `StateAtlas.LabelProvider.Call` — a call of a provider.
* `StateAtlas.VariableSpec.Binds` — the innermost binding of a variable on the stack.
* `StateAtlas.VariableProvider.Loses` — an instruction takes a value out of scope.
* `StateAtlas.VariableProvider.Rebinds` — an instruction binds a watched variable.

## Main results

* `StateAtlas.VariableProvider.exists_calledBy` — calls leave the variables of a provider alone.
* `StateAtlas.VariableProvider.scope_exit_retained` — a value that goes out of scope labels one state
  more, unless the variable is bound elsewhere on the stack.
* `StateAtlas.VariableProvider.store_cuts_iff` — a store cuts if and only if the label of a variable
  changes, or an integer takes the place of something else, or the other way round.
-/

namespace StateAtlas

namespace LabelProvider

/-- A call of a provider. -/
inductive Call where
  | stateLabels (view : View)
  | beforeInstruction (s : Scene) (i : Instruction)
  | breakAfter (s : Scene) (i : Instruction)
  | breakBefore (s : Scene) (i : Instruction)

variable {P : Type} [LabelProvider P]

/-- A provider after a call. -/
def answered (p : P) : Call → P
  | .stateLabels view => (stateLabels view p).1
  | .beforeInstruction s i => (beforeInstruction s i p).1
  | .breakAfter s i => (breakAfter s i p).1
  | .breakBefore s i => (breakBefore s i p).1

/-- A provider after some calls. -/
def calledBy (p : P) (calls : List Call) : P := calls.foldl answered p

/-- The labels that a provider gives a state are those with a property. -/
def Tells (p : P) (view : View) (of : Label → Prop) : Prop :=
  ∃ ls, (stateLabels view p).2 = .ok (some ls) ∧ ∀ l, l ∈ ls ↔ of l

end LabelProvider

/-! ## What an instruction does to local names -/

namespace Instruction

/-- What becomes known of an instruction while it runs is what it returned or raised. -/
lemma exists_foldl_apply (es : List Effect) : ∀ i : Instruction, ∃ returned returnValue exception,
    es.foldl apply i = { i with returned, returnValue, exception } := by
  induction es with
  | nil => exact fun i => ⟨_, _, _, rfl⟩
  | cons e es ih =>
    intro i
    have happly : ∃ returned returnValue exception,
        i.apply e = { i with returned, returnValue, exception } := by
      cases e <;>
      · rw [apply]
        split <;> exact ⟨_, _, _, rfl⟩
    obtain ⟨returned, returnValue, exception, happly⟩ := happly
    rw [List.foldl_cons, happly]
    exact ih _

variable {i : Instruction}

/-- An instruction that returns or deletes binds no local name. -/
lemma storedNames_of_leaves (h : i.isReturn = true ∨ deleteOps.contains i.opname = true) :
    i.storedNames = [] := by
  have leaves : ∀ op, op = "RETURN_VALUE" ∨ op = "RETURN_CONST" ∨ deleteOps.contains op = true →
      storeOps.contains op = false ∧ op ≠ "STORE_FAST_STORE_FAST" ∧ op ≠ "STORE_FAST_LOAD_FAST" := by
    intro op hop
    simp only [deleteOps, List.contains_eq_mem, List.mem_cons, List.not_mem_nil, or_false,
      decide_eq_true_eq] at hop
    rcases hop with rfl | rfl | rfl | rfl | rfl <;> decide
  obtain ⟨hone, htwo, hload⟩ := leaves i.opname (by simpa [isReturn, or_assoc] using h)
  rw [storedNames, hone]
  split
  · simp_all
  · split <;> simp_all

end Instruction

/-! ## Live bindings -/

namespace VariableSpec

variable {spec : VariableSpec} {s : Scene} {fs : List FrameId} {function : String} {v : Value}

/-- A frame is an activation of a function of the variable, and binds the variable. -/
def Holds (spec : VariableSpec) (s : Scene) (f : FrameId) (v : Value) : Prop :=
  spec.function.covers (s.functionName f) = true ∧ s.local? f spec.name = some v

/-- No frame on the stack holds the variable. -/
def Unbound (spec : VariableSpec) (s : Scene) (top : Option FrameId) : Prop :=
  ∀ f ∈ s.stack top, ∀ v, ¬spec.Holds s f v

/-- The innermost frame on the stack that holds the variable is an activation of the function, and
binds the variable to the value. -/
def Binds (spec : VariableSpec) (s : Scene) (top : Option FrameId) (function : String)
    (v : Value) : Prop :=
  ∃ inner f outer, s.stack top = inner ++ f :: outer ∧ (∀ g ∈ inner, ∀ w, ¬spec.Holds s g w) ∧
    spec.Holds s f v ∧ s.functionName f = function

/-- A frame that does not hold the variable is passed over. -/
lemma findIn?_cons_of_not_holds {f : FrameId} (h : ∀ v, ¬spec.Holds s f v) :
    spec.findIn? s (f :: fs) = spec.findIn? s fs := by
  rw [findIn?]
  split
  · rename_i hc
    split
    · rename_i v hv
      exact absurd ⟨hc, hv⟩ (h v)
    · rfl
  · rfl

/-- The first frame that holds the variable is the one that is found. -/
lemma findIn?_cons_of_holds {f : FrameId} (h : spec.Holds s f v) :
    spec.findIn? s (f :: fs) = some (s.functionName f, v) := by
  simp only [findIn?, h.1, if_pos, h.2]

lemma findIn?_eq_none_iff :
    spec.findIn? s fs = none ↔ ∀ f ∈ fs, ∀ v, ¬spec.Holds s f v := by
  induction fs with
  | nil => simp [findIn?]
  | cons f fs ih =>
    rw [List.forall_mem_cons, ← ih]
    by_cases hf : ∃ v, spec.Holds s f v
    · obtain ⟨v, hv⟩ := hf
      simp only [findIn?_cons_of_holds hv, reduceCtorEq, false_iff, not_and]
      exact fun h => absurd hv (h v)
    · rw [not_exists] at hf
      rw [findIn?_cons_of_not_holds hf, and_iff_right hf]

lemma findIn?_eq_some_iff : spec.findIn? s fs = some (function, v) ↔
    ∃ inner f outer, fs = inner ++ f :: outer ∧ (∀ g ∈ inner, ∀ w, ¬spec.Holds s g w) ∧
      spec.Holds s f v ∧ s.functionName f = function := by
  constructor
  · induction fs with
    | nil => simp [findIn?]
    | cons f fs ih =>
      intro h
      by_cases hf : ∃ v, spec.Holds s f v
      · obtain ⟨w, hw⟩ := hf
        rw [findIn?_cons_of_holds hw, Option.some.injEq, Prod.mk.injEq] at h
        obtain ⟨rfl, rfl⟩ := h
        exact ⟨[], f, fs, rfl, by simp, hw, rfl⟩
      · rw [not_exists] at hf
        rw [findIn?_cons_of_not_holds hf] at h
        obtain ⟨inner, g, outer, rfl, hinner, hg⟩ := ih h
        exact ⟨f :: inner, g, outer, rfl, List.forall_mem_cons.mpr ⟨hf, hinner⟩, hg⟩
  · rintro ⟨inner, f, outer, rfl, hinner, hf, rfl⟩
    induction inner with
    | nil => exact findIn?_cons_of_holds hf
    | cons g inner ih =>
      obtain ⟨hg, hinner⟩ := List.forall_mem_cons.mp hinner
      rw [List.cons_append, findIn?_cons_of_not_holds hg, ih hinner]

end VariableSpec

/-! ## What is known of a variable -/

namespace VariableProvider

open LabelProvider

variable {p q : VariableProvider} {s before after : Scene} {view : View} {i j : Instruction}
  {spec : VariableSpec} {v : Value} {l : Label}

/-- The label of the innermost binding of a variable. -/
def Shows (q : VariableProvider) (spec : VariableSpec) (view : View) (l : Label) : Prop :=
  ∃ function v, spec.Binds view.scene view.top function v ∧ q.label? spec function v = some l

/-- An instruction takes a value out of the scope of a watched variable: it returns from the frame
that holds the value, or deletes the variable there, and the value is one the provider can read. -/
structure Loses (q : VariableProvider) (s : Scene) (i : Instruction) (spec : VariableSpec)
    (v : Value) : Prop where
  covers : spec.function.covers i.function = true
  leaves : i.isReturn = true ∨ i.deletes spec.name = true
  held : s.local? i.frame spec.name = some v
  read : (q.interpret? v).isSome = true

/-- An instruction binds a watched variable. -/
def Rebinds (i : Instruction) (spec : VariableSpec) : Prop :=
  spec.function.covers i.function = true ∧ i.stores spec.name = true

/-- What a provider reads of a variable in the frame of an instruction. -/
def reading? (q : VariableProvider) (s : Scene) (i : Instruction) (spec : VariableSpec) :
    Option Bool :=
  (s.local? i.frame spec.name).bind q.interpret?

/-- The label of a variable in the frame of an instruction; there is none for one that is not
bound. -/
def labelIn? (q : VariableProvider) (s : Scene) (i : Instruction) (spec : VariableSpec) :
    Option Label :=
  (s.local? i.frame spec.name).bind (q.label? spec i.function)

/-- A call changes no more than what a provider remembers. -/
lemma exists_answered (q : VariableProvider) (c : Call) : ∃ before retained,
    answered (Provider.variable q) c = .variable { q with before, retained } := by
  cases c with
  | stateLabels view =>
    obtain ⟨kept, hq, -⟩ := labelsOf_fst view q.watched q
    exact ⟨q.before, kept, congrArg Provider.variable hq⟩
  | beforeInstruction s i => exact ⟨_, _, rfl⟩
  | breakAfter s i => exact ⟨_, _, rfl⟩
  | breakBefore s i => exact ⟨_, _, rfl⟩

/-- Calls change no more than what a provider remembers. -/
theorem exists_calledBy (calls : List Call) : ∀ q : VariableProvider, ∃ before retained,
    calledBy (Provider.variable q) calls = .variable { q with before, retained } := by
  induction calls with
  | nil => exact fun q => ⟨_, _, rfl⟩
  | cons c calls ih =>
    intro q
    obtain ⟨before, retained, hc⟩ := exists_answered q c
    rw [calledBy, List.foldl_cons, hc]
    exact ih _

/-- The label of a variable that another one is not. -/
lemma labelOf?_lookup_of_ne {spec' : VariableSpec} (h : spec.signature ≠ spec'.signature) :
    (p.lookup view spec').1.labelOf? view spec = p.labelOf? view spec := by
  rw [labelOf?, labelOf?, lookup, lookup, lookup]
  simp only [Bindings.get?_erase_of_ne h]
  rfl

/-- The labels of a state are those of the variables. -/
lemma mem_labelsOf_iff : ∀ {specs : List VariableSpec} {p : VariableProvider},
    (∀ spec ∈ specs, ∀ spec' ∈ specs, spec.signature = spec'.signature → spec = spec') →
      (l ∈ (labelsOf view specs p).2 ↔ ∃ spec ∈ specs, p.labelOf? view spec = some l) := by
  intro specs
  induction specs with
  | nil => simp [labelsOf]
  | cons head specs ih =>
    intro p hdistinct
    refine ⟨exists_of_mem_labelsOf, ?_⟩
    rintro ⟨spec, hs, hl⟩
    have hrest := ih (p := (p.lookup view head).1) fun spec hs spec' hs' =>
      hdistinct spec (List.mem_cons_of_mem _ hs) spec' (List.mem_cons_of_mem _ hs')
    rw [labelsOf, List.mem_append]
    by_cases heq : spec.signature = head.signature
    · obtain rfl := hdistinct spec hs head List.mem_cons_self heq
      exact .inl (Option.mem_toList.mpr hl)
    · have hs : spec ∈ specs := (List.mem_cons.mp hs).resolve_left fun h => heq (h ▸ rfl)
      exact .inr (hrest.mpr ⟨spec, hs, (labelOf?_lookup_of_ne heq).trans hl⟩)

/-- A variable is labelled by its innermost binding, or by what is retained of it. -/
lemma labelOf?_eq_some_iff : p.labelOf? view spec = some l ↔ p.Shows spec view l ∨
    spec.Unbound view.scene view.top ∧
      ∃ r, p.retained.get? spec.signature = some r ∧ p.label? spec r.function r.value = some l := by
  cases hf : spec.find? view.scene view.top with
  | none =>
    have hunbound : spec.Unbound view.scene view.top := VariableSpec.findIn?_eq_none_iff.mp hf
    have hshow : ¬p.Shows spec view l := by
      rintro ⟨function, v, ⟨inner, f, outer, hstack, -, hv, -⟩, -⟩
      exact hunbound f (by simp [hstack]) v hv
    rw [labelOf?_of_unbound hf, Option.bind_eq_some_iff, or_iff_right hshow,
      and_iff_right hunbound]
  | some found =>
    obtain ⟨function, v⟩ := found
    have hbound : ¬spec.Unbound view.scene view.top := fun h => by
      rw [VariableSpec.find?, VariableSpec.findIn?_eq_none_iff.mpr h] at hf
      simp at hf
    have hshow : p.Shows spec view l ↔ p.label? spec function v = some l := by
      constructor
      · rintro ⟨function', v', hb, hl⟩
        have hf' := VariableSpec.findIn?_eq_some_iff.mpr hb
        rw [← VariableSpec.find?, hf, Option.some.injEq, Prod.mk.injEq] at hf'
        rwa [hf'.1, hf'.2]
      · exact fun hl => ⟨function, v, VariableSpec.findIn?_eq_some_iff.mp hf, hl⟩
    rw [labelOf?, lookup, hf, hshow, or_iff_left fun h => hbound h.1]
    rfl

/-! ## What an instruction changes -/

/-- Before an instruction the variables are noted that it may change, and no others. -/
lemma get?_noted (hq : q.Fresh) (hs : spec ∈ q.watched) :
    (q.beforeInstruction s i).before.get? spec.signature =
      if spec.function.covers i.function && touches spec i then some (s.local? i.frame spec.name)
      else none := by
  have hmem : ∀ v, (q.beforeInstruction s i).before.get? spec.signature = some v →
      spec.function.covers i.function = true ∧ touches spec i = true := by
    intro v hv
    have hv := Bindings.of_get?_ofList hv
    simp only [List.mem_map, List.mem_filter, Prod.mk.injEq, Bool.and_eq_true] at hv
    obtain ⟨spec', ⟨hs', hc⟩, hsig, -⟩ := hv
    obtain rfl := hq.distinct spec' hs' spec hs hsig
    exact hc
  split
  · rename_i hc
    refine Bindings.get?_setAll_of_forall ?_ (.inr ?_)
    · simp only [List.mem_map, List.mem_filter, forall_exists_index, and_imp]
      rintro e spec' hs' - rfl hsig
      rw [hq.distinct spec' hs' spec hs hsig]
    · simp only [List.mem_map, List.mem_filter]
      exact ⟨_, ⟨spec, ⟨hs, hc⟩, rfl⟩, rfl⟩
  · rename_i hc
    cases hv : (q.beforeInstruction s i).before.get? spec.signature with
    | none => rfl
    | some v => exact absurd (Bool.and_eq_true_iff.mpr (hmem v hv)) hc

/-- What becomes known of an instruction while it runs is nothing to the provider. -/
lemma breakAfter_effects (p : VariableProvider) (s : Scene) (i : Instruction) (es : List Effect) :
    p.breakAfter s (es.foldl Instruction.apply i) = p.breakAfter s i := by
  obtain ⟨returned, returnValue, exception, h⟩ := i.exists_foldl_apply es
  rw [h]
  rfl

/-- A store to a watched variable asks for a boundary if the variable is read differently. -/
lemma change_of_stores (hq : q.Fresh) (hs : spec ∈ q.watched)
    (hstore : i.stores spec.name = true) :
    (q.beforeInstruction before i).change after i spec =
      (spec.function.covers i.function && q.reading? after i spec != q.reading? before i spec,
        none) := by
  have htouch : touches spec i = true := by simp [touches, hstore]
  rw [change, get?_noted hq hs, htouch, Bool.and_true]
  cases hc : spec.function.covers i.function with
  | false => rfl
  | true => exact if_pos hstore

/-- An instruction that does not store to a watched variable asks for a boundary if it takes a value
of the variable out of scope, and this value is retained. -/
lemma change_of_not_stores (before after : Scene) (hq : q.Fresh) (hs : spec ∈ q.watched)
    (hstore : i.stores spec.name = false) :
    (∃ v, q.Loses before i spec v ∧
      (q.beforeInstruction before i).change after i spec = (true, some ⟨i.function, v⟩)) ∨
    (∀ v, ¬q.Loses before i spec v) ∧
      (q.beforeInstruction before i).change after i spec = (false, none) := by
  rw [change, get?_noted hq hs]
  by_cases hc : (spec.function.covers i.function && touches spec i) = true
  · obtain ⟨hcover, htouch⟩ := Bool.and_eq_true_iff.mp hc
    have hleave : (i.isReturn || i.deletes spec.name) = true := by
      simpa [touches, hstore, or_comm] using htouch
    simp only [if_pos hc, hstore, Bool.false_eq_true, if_false, if_pos hleave]
    cases hv : before.local? i.frame spec.name with
    | none => exact .inr ⟨fun v h => by simpa [hv] using h.held, rfl⟩
    | some v =>
      by_cases hread : (q.interpret? v).isSome = true
      · exact .inl ⟨v, ⟨hcover, by simpa using hleave, hv, hread⟩, if_pos hread⟩
      · refine .inr ⟨fun w h => hread ?_, if_neg hread⟩
        obtain rfl : v = w := Option.some.inj (hv.symm.trans h.held)
        exact h.read
  · refine .inr ⟨fun v h => hc ?_, by rw [if_neg hc]⟩
    simpa [touches, hstore, or_comm] using And.intro h.covers h.leaves

/-- A boundary is wanted after an instruction if a watched variable asks for it. -/
lemma breakAfter_wanted : ∃ answer, (p.breakAfter s i).2 = .ok answer ∧
    (answer.isSome = true ↔ ∃ spec ∈ p.watched, (p.change s i spec).1 = true) := by
  refine ⟨_, rfl, ?_⟩
  simp only [List.any_map, List.any_eq_true, Function.comp_apply]
  split
  · rename_i h
    exact iff_of_true rfl (by simpa using h)
  · rename_i h
    exact iff_of_false (by simp) (by simpa using h)

/-- After an instruction that binds nothing, the values are retained that it took out of scope. -/
lemma get?_retained_iff (hq : q.Fresh) (hs : spec ∈ q.watched) (hi : i.storedNames = [])
    {r : Retained} :
    ((q.beforeInstruction before i).breakAfter after i).1.retained.get? spec.signature = some r ↔
      ∃ v, q.Loses before i spec v ∧ r = ⟨i.function, v⟩ := by
  have hstore : ∀ spec : VariableSpec, i.stores spec.name = false := by
    simp [Instruction.stores, hi, Instruction.names]
  have hchange : ∀ {spec r}, spec ∈ q.watched →
      (((q.beforeInstruction before i).change after i spec).2 = some r ↔
        ∃ v, q.Loses before i spec v ∧ r = ⟨i.function, v⟩) := by
    intro spec r hs
    rcases change_of_not_stores before after hq hs (hstore spec) with ⟨v, hv, hc⟩ | ⟨hnone, hc⟩
    · rw [hc, Option.some.injEq]
      refine ⟨fun h => ⟨v, hv, h.symm⟩, ?_⟩
      rintro ⟨w, hw, rfl⟩
      rw [Option.some.inj (hv.held.symm.trans hw.held)]
    · rw [hc]
      exact iff_of_false (by simp) fun ⟨v, hv, _⟩ => hnone v hv
  have hmem : ∀ {r}, (spec.signature, r) ∈ ((q.watched.map fun spec =>
      (spec.signature, (q.beforeInstruction before i).change after i spec)).filterMap
        fun change => change.2.2.map (change.1, ·)) ↔
      ∃ v, q.Loses before i spec v ∧ r = ⟨i.function, v⟩ := by
    intro r
    rw [← hchange hs]
    simp only [List.filterMap_map, List.mem_filterMap, Function.comp_apply, Option.map_eq_some_iff,
      Prod.mk.injEq]
    constructor
    · rintro ⟨spec', hs', r', hr', hsig, rfl⟩
      obtain rfl := hq.distinct spec' hs' spec hs hsig
      exact hr'
    · exact fun hr => ⟨spec, hs, r, hr, rfl, rfl⟩
  constructor
  · exact fun h => hmem.mp (Bindings.of_get?_ofList h)
  · intro h
    refine Bindings.get?_setAll_of_forall (fun e he heq => ?_)
      (.inr (List.mem_map.mpr ⟨_, hmem.mpr h, rfl⟩))
    obtain ⟨k, r'⟩ := e
    obtain rfl : k = spec.signature := heq
    obtain ⟨v, hv, rfl⟩ := h
    obtain ⟨w, hw, rfl⟩ := hmem.mp he
    rw [Option.some.inj (hv.held.symm.trans hw.held)]

/-! ## Values that go out of scope -/

/-- The labels of a state, as far as a provider remembers anything. -/
lemma tells_variable (hq : q.Fresh) (noted : Bindings (Option Value)) (retained : Bindings Retained)
    (view : View) : Tells (Provider.variable { q with before := noted, retained }) view fun l =>
      ∃ spec ∈ q.watched, q.Shows spec view l ∨ spec.Unbound view.scene view.top ∧
        ∃ r, retained.get? spec.signature = some r ∧ q.label? spec r.function r.value = some l :=
  ⟨_, rfl, fun _ => (mem_labelsOf_iff hq.distinct).trans
    (exists_congr fun _ => and_congr_right fun _ => labelOf?_eq_some_iff)⟩

/-- The labels of a state if nothing is retained of the variables. -/
lemma tells_live (hq : q.Fresh) (noted : Bindings (Option Value)) {retained : Bindings Retained}
    (h : ∀ spec ∈ q.watched, ∀ r, retained.get? spec.signature ≠ some r) (view : View) :
    Tells (Provider.variable { q with before := noted, retained }) view fun l =>
      ∃ spec ∈ q.watched, q.Shows spec view l := by
  obtain ⟨ls, hls, hmem⟩ := tells_variable hq noted retained view
  refine ⟨ls, hls, fun l => (hmem l).trans ?_⟩
  refine exists_congr fun spec => and_congr_right fun hs => or_iff_left ?_
  rintro ⟨-, r, hr, -⟩
  exact h spec hs r hr

/-- Whatever a provider of a configuration has been asked before, let an instruction be announced
that returns or deletes, and let it run. A boundary is wanted after it if and only if it takes a value
that the provider reads out of the scope of a watched variable. Asked for labels then, the provider
gives those of the innermost bindings of the variables, and for a variable that is bound nowhere on
the stack that of the value the instruction has taken out of scope. Asked again it gives those of the
innermost bindings alone; and an instruction that is announced makes it forget whatever it has been
asked before.

**Proof sketch.** The announcement notes just the variables that the instruction may change, and
drops what was retained. The instruction binds nothing, and so a watched variable is retained if and
only if it loses a value the provider reads. Labelling a state uses up what is retained. -/
theorem scope_exit_retained {k : ProviderKind} {targets : List String}
    (hq : Provider.ofTargets k targets = .ok (.variable q)) (calls : List Call)
    (before after : Scene)
    (hi : i.isReturn = true ∨ Instruction.deleteOps.contains i.opname = true) (es : List Effect) :
    let announced := (LabelProvider.beforeInstruction before i
      (calledBy (Provider.variable q) calls)).1
    let ran := LabelProvider.breakAfter after (es.foldl Instruction.apply i) announced
    (∃ answer, ran.2 = .ok answer ∧
      (answer.isSome = true ↔ ∃ spec ∈ q.watched, ∃ v, q.Loses before i spec v)) ∧
    (∀ view, Tells ran.1 view (fun l => ∃ spec ∈ q.watched, q.Shows spec view l ∨
        spec.Unbound view.scene view.top ∧
          ∃ v, q.Loses before i spec v ∧ q.label? spec i.function v = some l) ∧
      ∀ view', Tells (LabelProvider.stateLabels view ran.1).1 view' fun l =>
        ∃ spec ∈ q.watched, q.Shows spec view' l) ∧
    ∀ calls' s j, (LabelProvider.beforeInstruction s j (calledBy ran.1 calls')).1 =
        (LabelProvider.beforeInstruction s j (Provider.variable q)).1 ∧
      ∀ view, Tells (LabelProvider.beforeInstruction s j (calledBy ran.1 calls')).1 view fun l =>
        ∃ spec ∈ q.watched, q.Shows spec view l := by
  have hfresh := fresh_of_ofTargets hq
  have hnames := Instruction.storedNames_of_leaves hi
  have hstore : ∀ spec : VariableSpec, i.stores spec.name = false := by
    simp [Instruction.stores, hnames, Instruction.names]
  obtain ⟨noted, retained, hcalls⟩ := exists_calledBy calls q
  let r := (q.beforeInstruction before i).breakAfter after i
  have hran : LabelProvider.breakAfter after (es.foldl Instruction.apply i)
      (LabelProvider.beforeInstruction before i (calledBy (Provider.variable q) calls)).1 =
        (Provider.variable r.1, r.2) := by
    rw [hcalls]
    exact congrArg (fun r => (Provider.variable r.1, r.2)) (breakAfter_effects _ after i es)
  have hr : r.1 = { q with before := r.1.before, retained := r.1.retained } := rfl
  intro announced ran
  rw [show ran = (Provider.variable r.1, r.2) from hran, hr]
  refine ⟨?_, fun view => ⟨?_, fun view' => ?_⟩, fun calls' s j => ?_⟩
  · obtain ⟨answer, hanswer, hwanted⟩ :=
      breakAfter_wanted (p := q.beforeInstruction before i) (s := after) (i := i)
    refine ⟨answer, hanswer, hwanted.trans (exists_congr fun spec => and_congr_right fun hs => ?_)⟩
    rcases change_of_not_stores before after hfresh hs (hstore spec) with
      ⟨v, hv, hc⟩ | ⟨hnone, hc⟩
    · rw [hc]
      exact iff_of_true rfl ⟨v, hv⟩
    · rw [hc]
      exact iff_of_false (by simp) fun ⟨v, hv⟩ => hnone v hv
  · obtain ⟨ls, hls, hmem⟩ := tells_variable hfresh r.1.before r.1.retained view
    refine ⟨ls, hls, fun l => (hmem l).trans ?_⟩
    refine exists_congr fun spec => and_congr_right fun hs => or_congr_right (and_congr_right ?_)
    refine fun _ => ⟨?_, ?_⟩
    · rintro ⟨_, hkept, hl⟩
      obtain ⟨v, hv, rfl⟩ := (get?_retained_iff hfresh hs hnames).mp hkept
      exact ⟨v, hv, hl⟩
    · rintro ⟨v, hv, hl⟩
      exact ⟨_, (get?_retained_iff hfresh hs hnames).mpr ⟨v, hv, rfl⟩, hl⟩
  · obtain ⟨kept, hkept, hgone⟩ :=
      labelsOf_fst view q.watched { q with before := r.1.before, retained := r.1.retained }
    have hlabelled : (LabelProvider.stateLabels view (Provider.variable
        { q with before := r.1.before, retained := r.1.retained })).1 =
          .variable { q with before := r.1.before, retained := kept } :=
      congrArg Provider.variable hkept
    rw [hlabelled]
    exact tells_live hfresh r.1.before (fun spec hs r' h => (hgone _ r' h).1 spec hs rfl) view'
  · obtain ⟨noted', retained', hcalls'⟩ := exists_calledBy calls'
      { q with before := r.1.before, retained := r.1.retained }
    rw [hcalls']
    exact ⟨rfl, tells_live hfresh _ fun spec hs r' => by
      simp [Bindings.empty, Bindings.get?, Bindings.find?]⟩

/-- A module in which `work` runs with one local variable, bound or not. -/
def workScene (n : Slot) : Scene where
  heap := ⟨#[.module (.ofList [("__name__", .str "prog")])]⟩
  modules := .empty
  frames := #[
    { globals := 0, name := "<module>", qualname := some "<module>", file := "prog.py", line := 1,
      position := 8, optimized := false, caller := none, locals := .variables 0 },
    { globals := 0, name := "work", qualname := some "work", file := "prog.py", line := 1,
      position := 2, optimized := true, caller := some 0, locals := .slots #["n"] #[n] }]

/-- An instruction of `work`. -/
def workInstruction (opname : String) (argument : Value) : Instruction :=
  ⟨opname, argument, "", 2, 1, "prog.work", false, false, .none, none⟩

/-- A state in which a frame of the scene is on top. -/
def workView (n : Slot) (top : FrameId) : View :=
  ⟨"prog", 0, true, false, 1, none, some top, workScene n⟩

/-- The variable of `work`. -/
def workVariable : VariableSpec := ⟨"prog.work:n", ⟨"prog.work"⟩, "n"⟩

/-- After `work` has returned, the state is labelled with the value its variable had; if it is labelled
once more, the label is gone. -/
theorem scope_exit_retained_work :
    let ran := LabelProvider.breakAfter (workScene (.value (.bool true)))
      (workInstruction "RETURN_VALUE" .none)
      (LabelProvider.beforeInstruction (workScene (.value (.bool true)))
        (workInstruction "RETURN_VALUE" .none)
        (calledBy (Provider.variable ⟨true, [workVariable], .empty, .empty⟩) [])).1
    let view := workView (.value (.bool true)) 0
    (∃ answer, ran.2 = .ok answer ∧ answer.isSome = true) ∧
      (∃ ls, (LabelProvider.stateLabels view ran.1).2 = .ok (some ls) ∧
        ⟨"true__prog_work__n", "prog.work:n = True"⟩ ∈ ls) ∧
      ∃ ls, (LabelProvider.stateLabels view (LabelProvider.stateLabels view ran.1).1).2 =
        .ok (some ls) ∧ ∀ l, l ∉ ls := by
  intro ran view
  obtain ⟨⟨answer, hanswer, hwanted⟩, hlabels, -⟩ := scope_exit_retained
    (show Provider.ofTargets .booleanVariable ["prog.work:n"] = .ok (.variable _) from rfl) []
    (workScene (.value (.bool true))) (workScene (.value (.bool true)))
    (i := workInstruction "RETURN_VALUE" .none) (.inl rfl) []
  have hloses : (VariableProvider.mk true [workVariable] .empty .empty).Loses
      (workScene (.value (.bool true))) (workInstruction "RETURN_VALUE" .none) workVariable
      (.bool true) :=
    ⟨by decide +kernel, .inl rfl, rfl, rfl⟩
  have hunbound : workVariable.Unbound view.scene view.top := by
    have huncovered : ∀ f ∈ view.scene.stack view.top,
        workVariable.function.covers (view.scene.functionName f) = false := by decide +kernel
    exact fun f hf v hv => absurd hv.1 (by simp [huncovered f hf])
  obtain ⟨⟨ls, hls, hmem⟩, hsecond⟩ := hlabels view
  obtain ⟨ls', hls', hmem'⟩ := hsecond view
  refine ⟨⟨answer, hanswer, hwanted.mpr ⟨_, List.mem_singleton_self _, _, hloses⟩⟩, ⟨ls, hls,
    (hmem _).mpr ⟨_, List.mem_singleton_self _, .inr ⟨hunbound, _, hloses, ?_⟩⟩⟩, ls', hls', ?_⟩
  · decide +kernel
  · intro l hl
    obtain ⟨spec, hs, function, v, ⟨inner, f, outer, hstack, -, hv, -⟩, -⟩ := (hmem' l).mp hl
    obtain rfl := List.mem_singleton.mp hs
    exact hunbound f (by simp [hstack]) v hv

/-! ## Stores -/

/-- The label for what is read of a variable. -/
def labelOfReading? (q : VariableProvider) (spec : VariableSpec) (function : String) (b : Bool) :
    Option Label :=
  let target := mangle function ++ "__" ++ mangle spec.name
  let subject := function ++ ":" ++ spec.name
  if q.boolean then
    some ⟨FieldReading.booleanWord b ++ "__" ++ target,
      subject ++ " = " ++ FieldReading.booleanText b⟩
  else if b then some ⟨target, subject ++ " > 0"⟩ else none

/-- The label of a variable depends on what is read of it. -/
lemma labelIn?_eq (q : VariableProvider) (s : Scene) (i : Instruction) (spec : VariableSpec) :
    q.labelIn? s i spec = (q.reading? s i spec).bind (q.labelOfReading? spec i.function) := by
  have hlabel : ∀ v, q.label? spec i.function v =
      (q.interpret? v).bind (q.labelOfReading? spec i.function) := by
    intro v
    rw [label?]
    unfold labelOfReading?
    cases q.boolean <;> cases q.interpret? v with
    | none => rfl
    | some b => cases b <;> rfl
  rw [labelIn?, reading?, Option.bind_assoc]
  exact congrArg _ (funext hlabel)

/-- What is read of a variable differs if and only if the label does, or else an integer that is not
positive stands against something that is no integer. -/
lemma reading_ne_iff {r r' : Option Bool} {function : String} : r ≠ r' ↔
    r.bind (q.labelOfReading? spec function) ≠ r'.bind (q.labelOfReading? spec function) ∨
      q.boolean = false ∧ r.isSome ≠ r'.isSome := by
  cases hq : q.boolean with
  | true =>
    have hinj : ∀ b b', q.labelOfReading? spec function b = q.labelOfReading? spec function b' →
        b = b' := by
      intro b b' h
      simp only [labelOfReading?, hq, if_true, Option.some.injEq, Label.mk.injEq,
        String.append_right_inj] at h
      have htext := h.2
      revert htext
      cases b <;> cases b' <;> decide
    have hsome : ∀ b, q.labelOfReading? spec function b ≠ none := by simp [labelOfReading?, hq]
    cases r with
    | none => cases r' <;> simp [(hsome _).symm]
    | some b =>
      cases r' with
      | none => simp [hsome]
      | some b' =>
        simp only [ne_eq, Option.some.injEq, Option.bind_some, Bool.true_eq_false, false_and,
          or_false]
        exact not_congr ⟨fun h => h ▸ rfl, hinj b b'⟩
  | false =>
    have htrue : q.labelOfReading? spec function true ≠ none := by simp [labelOfReading?, hq]
    have hfalse : q.labelOfReading? spec function false = none := by simp [labelOfReading?, hq]
    rcases r with _ | _ | _ <;> rcases r' with _ | _ | _ <;> simp [hfalse, htrue, htrue.symm]

/-- Whatever a provider of a configuration has been asked before, let an instruction be announced
that binds local names, and let it run. A boundary is wanted after it if and only if it binds a watched
variable whose label is another one after than before, or whose value is an integer on one side only
although the provider labels positive integers.

**Proof sketch.** The instruction neither returns nor deletes, so that a boundary is wanted if and only
if a watched variable that it binds is read differently. The label depends on what is read, and only
an integer that is not positive is read without a label. -/
theorem store_cuts_iff {k : ProviderKind} {targets : List String}
    (hq : Provider.ofTargets k targets = .ok (.variable q)) (calls : List Call)
    (before after : Scene) (hi : i.storedNames ≠ []) (es : List Effect) :
    ∃ answer, (LabelProvider.breakAfter after (es.foldl Instruction.apply i)
        (LabelProvider.beforeInstruction before i (calledBy (Provider.variable q) calls)).1).2 =
          .ok answer ∧
      (answer.isSome = true ↔ ∃ spec ∈ q.watched, Rebinds i spec ∧
        (q.labelIn? after i spec ≠ q.labelIn? before i spec ∨
          q.boolean = false ∧
            (q.reading? after i spec).isSome ≠ (q.reading? before i spec).isSome)) := by
  have hfresh := fresh_of_ofTargets hq
  obtain ⟨noted, retained, hcalls⟩ := exists_calledBy calls q
  obtain ⟨answer, hanswer, hwanted⟩ :=
    breakAfter_wanted (p := q.beforeInstruction before i) (s := after) (i := i)
  refine ⟨answer, ?_, hwanted.trans (exists_congr fun spec => and_congr_right fun hs => ?_)⟩
  · rw [hcalls]
    exact (congrArg Prod.snd (breakAfter_effects _ after i es)).trans hanswer
  · rw [labelIn?_eq, labelIn?_eq, ← reading_ne_iff, Rebinds]
    cases hstore : i.stores spec.name with
    | true => simp [change_of_stores hfresh hs hstore]
    | false =>
      rcases change_of_not_stores before after hfresh hs hstore with
        ⟨v, hv, -⟩ | ⟨-, hc⟩
      · -- it would return or delete
        refine absurd (Instruction.storedNames_of_leaves (hv.leaves.imp_right fun h => ?_)) hi
        by_contra hop
        rw [Instruction.deletes, Instruction.deletedNames, if_neg hop] at h
        simp [Instruction.names] at h
      · simp [hc]

/-- A positive integer takes the place of a negative one. -/
theorem store_cuts_iff_work : ∃ answer,
    (LabelProvider.breakAfter (workScene (.value (.int 3)))
      (workInstruction "STORE_FAST" (.str "n"))
      (LabelProvider.beforeInstruction (workScene (.value (.int (-1))))
        (workInstruction "STORE_FAST" (.str "n"))
        (calledBy (Provider.variable ⟨false, [workVariable], .empty, .empty⟩) [])).1).2 =
        .ok answer ∧ answer.isSome = true := by
  obtain ⟨answer, hanswer, hwanted⟩ := store_cuts_iff
    (show Provider.ofTargets .positiveVariable ["prog.work:n"] = .ok (.variable _) from rfl) []
    (workScene (.value (.int (-1)))) (workScene (.value (.int 3)))
    (i := workInstruction "STORE_FAST" (.str "n")) (by decide) []
  refine ⟨answer, hanswer, hwanted.mpr ⟨workVariable, List.mem_singleton_self _, ?_, .inl ?_⟩⟩
  · exact ⟨by decide +kernel, by decide +kernel⟩
  · decide +kernel

/-- The variable is bound to zero, and has no label before or after; a boundary is wanted all the
same. -/
theorem store_of_zero_cuts :
    let q : VariableProvider := ⟨false, [workVariable], .empty, .empty⟩
    let i := workInstruction "STORE_FAST" (.str "n")
    Provider.ofTargets .positiveVariable ["prog.work:n"] = .ok (.variable q) ∧
      (LabelProvider.breakAfter (workScene (.value (.int 0))) i
        (LabelProvider.beforeInstruction (workScene .unbound) i (Provider.variable q)).1).2 =
          .ok (some []) ∧
      ∀ spec ∈ q.watched, q.labelIn? (workScene .unbound) i spec = none ∧
        q.labelIn? (workScene (.value (.int 0))) i spec = none := by
  refine ⟨rfl, rfl, ?_⟩
  decide +kernel

end VariableProvider

end StateAtlas
