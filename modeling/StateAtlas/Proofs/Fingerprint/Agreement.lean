import StateAtlas.Proofs.Fingerprint.Reading

set_option autoImplicit false

/-!
# Scenes that a fingerprint tells apart

A fingerprint shows the variables of the module and of the functions on the stack, and where each of
these functions stands. Where two scenes differ in nothing but plain values of such variables and in
such places, it tells them apart: equal fingerprints make equal scenes. What it does not show must be
the same for that, in particular the objects on the heap and all that runs or waits outside of the
variables.

## Main definitions

* `StateAtlas.Scene.slots` — the local variables that the picture of a frame shows.
* `StateAtlas.Scene.Alike` — scenes that differ in shown plain values, and in where functions
  stand, at most.

## Main results

* `StateAtlas.Scene.Alike.eq_of_fingerprint` — alike scenes with equal fingerprints are equal.
-/

namespace StateAtlas

/-! ## Scenes that differ in what is shown at most -/

/-- The same slot, or slots with plain values. -/
def Slot.Alike (σ τ : Slot) : Prop :=
  σ = τ ∨ ∃ v w : Value, σ = .value v ∧ τ = .value w ∧ v.isPlain = true ∧ w.isPlain = true

/-- The same local variables, or slots of a function in which shown plain values differ. -/
inductive Locals.Alike (optimized : Bool) : Locals → Locals → Prop
  | same (ls : Locals) : Alike optimized ls ls
  | slots {names : Array String} {values values' : Array Slot} (ho : optimized = true)
      (hsize : values.size = values'.size)
      (hvalues : ∀ i : Nat, values[i]? = values'[i]? ∨ ∃ (name : String) (v w : Value),
        names[i]? = some name ∧ isHiddenName name = false ∧ values[i]? = some (.value v) ∧
          values'[i]? = some (.value w) ∧ v.isPlain = true ∧ w.isPlain = true) :
      Alike optimized (.slots names values) (.slots names values')

namespace Scene

/-- The local variables that the picture of a frame shows, each with its slot. -/
def slots (s : Scene) (f : FrameId) : List (String × Slot) :=
  match s.frame? f with
  | some fr =>
    match fr.optimized, fr.locals with
    | true, .slots names values => names.toList.zip values.toList
    | _, _ => []
  | none => []

/-- An object is the same in two scenes, or plain values that are shown differ in it: those of the
variables of the module, or that of a variable that several functions share. -/
inductive ObjectAlike (frames : List FrameId) (module : Address) (s s' : Scene) (a : Address) : Prop
  | same (h : s.heap.get? a = s'.heap.get? a)
  | module {vs vs' : Bindings Value} (ha : a = module) (h : s.heap.get? a = some (.module vs))
      (h' : s'.heap.get? a = some (.module vs'))
      (hvs : List.Forall₂ (fun e e' => e.1 = e'.1 ∧ Value.Alike e.2 e'.2 ∧
        (isHiddenName e.1 = true → e.2 = e'.2)) vs.entries vs'.entries)
  | cell {f : FrameId} {name : String} {v w : Value} (hf : f ∈ frames)
      (hn : isHiddenName name = false) (hslot : (name, Slot.cell a) ∈ s.slots f)
      (h : s.heap.get? a = some (.cell (some v))) (h' : s'.heap.get? a = some (.cell (some w)))
      (hv : v.isPlain = true) (hw : w.isPlain = true)

/-- A frame is the same in two scenes, or one that is shown, and stands elsewhere or has other plain
values of its shown local variables. -/
inductive FrameAlike (frames : List FrameId) (s s' : Scene) (f : FrameId) : Prop
  | same (h : s.frame? f = s'.frame? f)
  | shown {fr : Frame} {line position : Int} {locals : Locals} (hf : f ∈ frames)
      (h : s.frame? f = some fr) (h' : s'.frame? f = some { fr with line, position, locals })
      (hlocals : Locals.Alike fr.optimized fr.locals locals)

/-- Scenes that differ in plain values, and in where functions stand, at most, and only where the
picture of the given frames and of the module shows it. -/
structure Alike (frames : List FrameId) (module : Address) (s s' : Scene) : Prop where
  modules : s.modules = s'.modules
  objects : ∀ a, ObjectAlike frames module s s' a
  frames : ∀ f, FrameAlike frames s s' f

/-- Equal scenes are alike. -/
lemma Alike.refl (frames : List FrameId) (module : Address) (s : Scene) :
    Alike frames module s s := ⟨rfl, fun _ => .same rfl, fun _ => .same rfl⟩

variable {frames : List FrameId} {module : Address} {s s' : Scene}

/-- Alike scenes have the same frames of a program on the stack: frames differ in what their
variables hold and in where they stand, and not in where they come from.

**Proof sketch.** The way out from a frame depends on the callers of frames only, and what is kept
of it on their files. -/
lemma Alike.programFrames_eq (h : Alike frames module s s') (f : Option FrameId) (file : String) :
    s.programFrames f file = s'.programFrames f file := by
  have hframe : ∀ f, (s.frame? f).map (fun fr => (fr.caller, fr.file)) =
      (s'.frame? f).map fun fr => (fr.caller, fr.file) := by
    intro f
    cases h.frames f with
    | same h => rw [h]
    | shown _ h h' => rw [h, h']; rfl
  have hsize : s.frames.size = s'.frames.size := by
    have hmap : s.frames.map (fun fr => (fr.caller, fr.file)) =
        s'.frames.map fun fr => (fr.caller, fr.file) :=
      Array.ext_getElem? fun i => by simpa [frame?] using hframe i
    simpa using congrArg Array.size hmap
  have houtward : ∀ fuel f, s.outward fuel f = s'.outward fuel f := by
    intro fuel
    induction fuel with
    | zero => exact fun f => by rw [outward.eq_def, outward.eq_def]
    | succ fuel ih =>
      intro f
      cases f with
      | none => rfl
      | some f =>
        have hf := hframe f
        rw [outward, outward]
        cases hfr : s.frame? f <;> cases hfr' : s'.frame? f <;> simp_all
  have hfile : ∀ i, (match s.frame? i with | some fr => fr.file == file | none => false) =
      match s'.frame? i with | some fr => fr.file == file | none => false := by
    intro i
    have hi := hframe i
    cases hfr : s.frame? i <;> cases hfr' : s'.frame? i <;> simp_all
  rw [programFrames, programFrames, stack, stack, hsize, houtward]
  exact congrArg List.reverse (List.filter_congr fun i _ => hfile i)

/-! ## The values that differ -/

/-- Slots of shown variables hold the same, or plain values. -/
lemma FrameAlike.slots_alike {f : FrameId} (h : FrameAlike frames s s' f) :
    List.Forall₂ (fun z z' => z.1 = z'.1 ∧ Slot.Alike z.2 z'.2) (s.slots f) (s'.slots f) := by
  have refl : s.slots f = s'.slots f →
      List.Forall₂ (fun z z' => z.1 = z'.1 ∧ Slot.Alike z.2 z'.2) (s.slots f) (s'.slots f) := by
    intro hslots
    rw [hslots, List.forall₂_same]
    exact fun _ _ => ⟨rfl, .inl rfl⟩
  cases h with
  | same h => exact refl (by rw [Scene.slots, Scene.slots, h])
  | @shown fr line position locals hf h h' hlocals =>
    generalize hls : fr.locals = ls at hlocals
    cases hlocals with
    | same => exact refl (by simp only [Scene.slots, h, h', hls])
    | @slots names values values' ho hsize hvalues =>
      simp only [Scene.slots, h, h', hls, ho]
      rw [List.forall₂_iff_get]
      refine ⟨by simp [hsize], fun i hi hi' => ?_⟩
      simp only [List.get_eq_getElem, List.getElem_zip, Array.getElem_toList, true_and]
      simp only [List.length_zip, Array.length_toList] at hi hi'
      rcases hvalues i with heq | ⟨name, v, w, -, -, hv, hw, hplain⟩
      · left
        rwa [Array.getElem?_eq_getElem (by omega), Array.getElem?_eq_getElem (by omega),
          Option.some.injEq] at heq
      · rw [Array.getElem?_eq_getElem (by omega), Option.some.injEq] at hv hw
        exact .inr ⟨v, w, hv, hw, hplain⟩

/-- What is in two slots of shown variables is the same, or plain values. -/
lemma Alike.slotValue?_alike (h : Alike frames module s s') {σ τ : Slot}
    (hσ : Slot.Alike σ τ) :
    Option.Rel Value.Alike (s.slotValue? σ) (s'.slotValue? τ) := by
  have hrefl : ∀ o : Option Value, Option.Rel Value.Alike o o := by
    intro o
    cases o with
    | none => exact .none
    | some v => exact .some (.inl rfl)
  rcases hσ with rfl | ⟨v, w, rfl, rfl, hplain⟩
  · cases σ with
    | unbound => exact .none
    | value v => exact hrefl _
    | cell a =>
      simp only [slotValue?]
      cases h.objects a with
      | same h => rw [h]; exact hrefl _
      | module ha h h' => rw [h, h']; exact .none
      | cell hf hn hslot h h' hv hw => rw [h, h']; exact .some (.inr ⟨hv, hw⟩)
  · exact .some (.inr hplain)

/-! ## What the picture of a frame determines -/

/-- The named value in the slot of a variable. -/
def bound? (s : Scene) (z : String × Slot) : Option (String × Value) :=
  (s.slotValue? z.2).map (z.1, ·)

/-- A frame that shows local variables is that of a function, and shows what they are bound to. -/
lemma exists_frame_of_slots {f : FrameId} (h : s.slots f ≠ []) :
    ∃ fr, s.frame? f = some fr ∧ fr.optimized = true ∧
      s.locals f = (s.slots f).filterMap s.bound? := by
  cases hfr : s.frame? f with
  | none => simp [slots, hfr] at h
  | some fr =>
    cases ho : fr.optimized with
    | false => simp [slots, hfr, ho] at h
    | true =>
      cases hl : fr.locals with
      | «variables» a => simp [slots, hfr, ho, hl] at h
      | slots names values =>
        refine ⟨fr, rfl, ho, ?_⟩
        simp only [locals, slots, hfr, ho, hl]
        rfl

/-- Variables that differ in plain values at most hold the same if the bound ones are the same,
except for those under hidden names. -/
lemma slotValue?_eq_of_filterMap {zs zs' : List (String × Slot)}
    (h : List.Forall₂ (fun z z' => z.1 = z'.1 ∧
      Option.Rel Value.Alike (s.slotValue? z.2) (s'.slotValue? z'.2)) zs zs')
    (heq : ((zs.filterMap s.bound?).filter fun e => !isHiddenName e.1) =
      (zs'.filterMap s'.bound?).filter fun e => !isHiddenName e.1) :
    List.Forall₂ (fun z z' => isHiddenName z.1 = false →
      s.slotValue? z.2 = s'.slotValue? z'.2) zs zs' := by
  induction h with
  | nil => exact .nil
  | @cons z z' zs zs' hz _ ih =>
    obtain ⟨hname, hvalue⟩ := hz
    rw [List.filterMap_cons, List.filterMap_cons, bound?, bound?, ← hname] at heq
    generalize hv : s.slotValue? z.2 = o at hvalue heq
    generalize hw : s'.slotValue? z'.2 = o' at hvalue heq
    cases hvalue with
    | none => exact .cons (fun _ => by rw [hv, hw]) (ih heq)
    | @some v w _ =>
      simp only [Option.map_some, List.filter_cons] at heq
      cases hhidden : isHiddenName z.1 with
      | true =>
        simp only [hhidden, Bool.not_true, Bool.false_eq_true, if_false] at heq
        exact .cons (by simp [hhidden]) (ih heq)
      | false =>
        simp only [hhidden, Bool.not_false, if_true, List.cons.injEq, Prod.mk.injEq, true_and]
          at heq
        exact .cons (fun _ => by rw [hv, hw, heq.1]) (ih heq.2)

/-- The picture of a frame determines what its shown variables hold.

**Proof sketch.** The picture of the bound variables determines them, and a variable is bound in
both scenes or in none. -/
lemma Alike.slotValue?_eq (h : Alike frames module s s') {f : FrameId} {owner owner' : Value}
    (hk : (s.freezeFrame owner f).key = (s'.freezeFrame owner' f).key) :
    List.Forall₂ (fun z z' => isHiddenName z.1 = false →
      s.slotValue? z.2 = s'.slotValue? z'.2) (s.slots f) (s'.slots f) := by
  have hslots := (h.frames f).slots_alike
  by_cases hnil : s.slots f = []
  · rw [hnil, List.forall₂_nil_left_iff] at hslots
    rw [hnil, hslots]
    exact .nil
  have hnil' : s'.slots f ≠ [] := by
    intro hnil'
    rw [hnil', List.forall₂_nil_right_iff] at hslots
    exact hnil hslots
  obtain ⟨fr, hfr, ho, hlocals⟩ := exists_frame_of_slots hnil
  obtain ⟨fr', hfr', ho', hlocals'⟩ := exists_frame_of_slots hnil'
  have hvalues := hslots.imp fun z z' hz => And.intro hz.1 (h.slotValue?_alike hz.2)
  have hbound : List.Forall₂ (fun e e' => e.1 = e'.1 ∧ Value.Alike e.2 e'.2) (s.locals f)
      (s'.locals f) := by
    rw [hlocals, hlocals']
    refine List.rel_filterMap (fun z z' hz => ?_) hvalues
    obtain ⟨hname, hvalue⟩ := hz
    rw [bound?, bound?, ← hname]
    generalize s.slotValue? z.2 = o at hvalue ⊢
    generalize s'.slotValue? z'.2 = o' at hvalue ⊢
    cases hvalue with
    | none => exact .none
    | some hvw => exact .some ⟨rfl, hvw⟩
  simp only [freezeFrame, hfr, hfr', ho, ho', if_true] at hk
  have hitems := Frozen.map_key_of_tuple hk
  simp only [List.map_cons, List.map_nil, List.cons.injEq, and_true] at hitems
  refine slotValue?_eq_of_filterMap hvalues ?_
  rw [← hlocals, ← hlocals']
  exact eq_of_freezeNames hbound hitems.2.2.2

/-! ## What a fingerprint determines -/

/-- A module has its name if the fingerprint can be made. -/
lemma isSome_ownerName?_of_fault? {b : Frozen}
    (h : (s.fingerprint frames (some module) b).fault? = none) :
    (s.ownerName? (some module)).isSome = true := by
  rw [fingerprint] at h
  split at h
  · cases h
  · rename_i owner howner
    rw [howner, Option.isSome_some]

/-- Entries that differ under shown names at most are the same if the shown ones are. -/
lemma eq_of_filter_shown {es es' : List (String × Value)}
    (h : List.Forall₂ (fun e e' => e.1 = e'.1 ∧ (isHiddenName e.1 = true → e.2 = e'.2)) es es')
    (heq : (es.filter fun e => !isHiddenName e.1) = es'.filter fun e => !isHiddenName e.1) :
    es = es' := by
  induction h with
  | nil => rfl
  | @cons e e' es es' he _ ih =>
    simp only [List.filter_cons, ← he.1] at heq
    cases hhidden : isHiddenName e.1 with
    | true =>
      simp only [hhidden, Bool.not_true, Bool.false_eq_true, if_false] at heq
      rw [ih heq, Prod.ext he.1 (he.2 hhidden)]
    | false =>
      simp only [hhidden, Bool.not_false, if_true, List.cons.injEq] at heq
      rw [ih heq.2, heq.1]

/-- The picture of a frame tells where it stands. -/
lemma place_eq {f : FrameId} {owner owner' : Value} {fr fr' : Frame} (h : s.frame? f = some fr)
    (h' : s'.frame? f = some fr')
    (hk : (s.freezeFrame owner f).key = (s'.freezeFrame owner' f).key) :
    fr.line = fr'.line ∧ fr.position = fr'.position := by
  simp only [freezeFrame, h, h'] at hk
  have hitems := Frozen.map_key_of_tuple hk
  simp only [List.map_cons, List.map_nil, List.cons.injEq, and_true] at hitems
  exact ⟨Frozen.eq_of_key_int hitems.2.1, Frozen.eq_of_key_int hitems.2.2.1⟩

/-- A frame is the same in both scenes if it stands at the same place and its shown variables hold
the same. -/
lemma FrameAlike.eq {f : FrameId} (h : FrameAlike frames s s' f)
    (hplace : f ∈ frames → ∀ {fr fr'}, s.frame? f = some fr → s'.frame? f = some fr' →
      fr.line = fr'.line ∧ fr.position = fr'.position)
    (hf : f ∈ frames → List.Forall₂ (fun z z' => isHiddenName z.1 = false →
      s.slotValue? z.2 = s'.slotValue? z'.2) (s.slots f) (s'.slots f)) :
    s.frame? f = s'.frame? f := by
  cases h with
  | same h => exact h
  | @shown fr line position locals hmem h h' hlocals =>
    obtain ⟨rfl, rfl⟩ : fr.line = line ∧ fr.position = position := hplace hmem h h'
    generalize hls : fr.locals = ls at hlocals
    cases hlocals with
    | same => rw [h, h', ← hls]
    | @slots names values values' ho hsize hvalues =>
      have hall := hf hmem
      simp only [Scene.slots, h, h', hls, ho] at hall
      have hvalues : values = values' := by
        refine Array.ext_getElem? fun i => ?_
        rcases hvalues i with heq | ⟨name, v, w, hname, hshown, hv, hw, -⟩
        · exact heq
        · have hz : (names.toList.zip values.toList)[i]? = some (name, .value v) := by
            simp [List.getElem?_zip_eq_some, hname, hv]
          have hz' : (names.toList.zip values'.toList)[i]? = some (name, .value w) := by
            simp [List.getElem?_zip_eq_some, hname, hw]
          obtain ⟨hi, hz⟩ := List.getElem?_eq_some_iff.mp hz
          obtain ⟨hi', hz'⟩ := List.getElem?_eq_some_iff.mp hz'
          have hval := hall.get hi hi'
          simp only [List.get_eq_getElem, hz, hz', slotValue?, Option.some.injEq] at hval
          rw [hv, hw, hval hshown]
      rw [h, h', ← hvalues, ← hls]

/-- A cell that is shown in a frame holds the same in both scenes if the shown variables of the
frame do. -/
lemma Alike.slotValue?_cell (h : Alike frames module s s') {f : FrameId} {name : String}
    {a : Address} (hn : isHiddenName name = false) (hslot : (name, Slot.cell a) ∈ s.slots f)
    (hf : List.Forall₂ (fun z z' => isHiddenName z.1 = false →
      s.slotValue? z.2 = s'.slotValue? z'.2) (s.slots f) (s'.slots f)) :
    s.slotValue? (.cell a) = s'.slotValue? (.cell a) := by
  obtain ⟨i, hi, hz⟩ := List.mem_iff_getElem.mp hslot
  have hi' : i < (s'.slots f).length := hf.length_eq ▸ hi
  have halike := ((h.frames f).slots_alike.get hi hi').2
  have hval := hf.get hi hi'
  simp only [List.get_eq_getElem, hz] at halike hval
  rcases halike with heq | ⟨v, w, hv, -⟩
  · rw [hval hn, ← heq]
  · cases hv

/-- Scenes that differ in shown plain values, and in where functions stand, at most, and have the same
fingerprint, are equal; so are the kinds of boundary, as far as they are pictured. The fingerprint
must have been made.

**Proof sketch.** Such values are in variables of the module, in cells, or in the slots of frames,
and the picture determines what the variables hold and where the frames stand. -/
theorem Alike.eq_of_fingerprint (h : Alike frames module s s') {b b' : Frozen}
    (hn : (s.fingerprint frames (some module) b).fault? = none)
    (hn' : (s'.fingerprint frames (some module) b').fault? = none)
    (hk : (s.fingerprint frames (some module) b).key =
      (s'.fingerprint frames (some module) b').key) : s = s' ∧ b.key = b'.key := by
  obtain ⟨owner, howner⟩ := Option.isSome_iff_exists.mp (isSome_ownerName?_of_fault? hn)
  obtain ⟨owner', howner'⟩ := Option.isSome_iff_exists.mp (isSome_ownerName?_of_fault? hn')
  simp only [fingerprint, howner, howner'] at hk
  have hparts := Frozen.map_key_of_tuple hk
  simp only [List.map_cons, List.map_nil, List.cons.injEq, and_true] at hparts
  obtain ⟨hb, hframes, hmodule⟩ := hparts
  have hpictures : ∀ f ∈ frames,
      (s.freezeFrame owner f).key = (s'.freezeFrame owner' f).key := by
    have hpictures := Frozen.map_key_of_tuple hframes
    rwa [List.map_map, List.map_map, List.map_inj_left] at hpictures
  have hslots : ∀ f ∈ frames, List.Forall₂ (fun z z' => isHiddenName z.1 = false →
      s.slotValue? z.2 = s'.slotValue? z'.2) (s.slots f) (s'.slots f) :=
    fun f hf => h.slotValue?_eq (hpictures f hf)
  have hobjects : ∀ a, s.heap.get? a = s'.heap.get? a := by
    intro a
    cases h.objects a with
    | same h => exact h
    | @module vs vs' ha hvs hvs' hall =>
      subst ha
      simp only [Heap.variables, hvs, hvs'] at hmodule
      have hentries := eq_of_filter_shown (hall.imp fun _ _ he => ⟨he.1, he.2.2⟩)
        (eq_of_freezeNames (hall.imp fun _ _ he => ⟨he.1, he.2.1⟩) hmodule)
      obtain ⟨entries, hnodup⟩ := vs
      obtain ⟨entries', hnodup'⟩ := vs'
      obtain rfl : entries = entries' := hentries
      rw [hvs, hvs']
    | cell hf hn hslot hv hw =>
      have hval := h.slotValue?_cell hn hslot (hslots _ hf)
      simp only [slotValue?, hv, hw] at hval
      rw [hv, hw, hval]
  have hframe : ∀ f, s.frame? f = s'.frame? f := fun f =>
    (h.frames f).eq (fun hf _ _ hfr hfr' => place_eq hfr hfr' (hpictures f hf)) (hslots f)
  have hmodules := h.modules
  obtain ⟨⟨objects⟩, modules, fs⟩ := s
  obtain ⟨⟨objects'⟩, modules', fs'⟩ := s'
  obtain rfl : objects = objects' := Array.ext_getElem? hobjects
  obtain rfl : fs = fs' := Array.ext_getElem? hframe
  obtain rfl : modules = modules' := hmodules
  exact ⟨rfl, hb⟩

end Scene

end StateAtlas
