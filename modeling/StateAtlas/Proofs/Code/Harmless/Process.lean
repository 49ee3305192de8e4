import StateAtlas.Code.Argument
import StateAtlas.Code.Variable
import StateAtlas.Proofs.Code.Harmless.Computation

set_option autoImplicit false

/-!
# Processes that hide the signal to stop

A process is harmless if the class of the signal to stop can be got neither from its heap nor from
what its frames, tasks and suspended functions hold, and if it does not end with the signal.
Whatever a process does to itself keeps it so, as long as it is given harmless values.

## Main definitions

* `StateAtlas.Process.Harmless` — the class of the signal cannot be got from a process.
* `StateAtlas.Move.Harmless` — a move leads to such a process.

## Main results

* `StateAtlas.Process.Harmless.throw` — a harmless exception leaves a process harmless.
* `StateAtlas.Process.Harmless.loadName`, `StateAtlas.Process.Harmless.loadSlot`,
  `StateAtlas.Process.Harmless.loadShared` — variables are harmless.
* `StateAtlas.Process.Harmless.ask` — asking an iterator leaves a process harmless.
* `StateAtlas.CodeObject.or_bindArguments` — the arguments of a call are bound to harmless values.
-/

namespace StateAtlas

open Value Heap

/-! ## What a process holds -/

/-- The value in a slot is harmless. -/
@[grind =]
def Slot.Harmless : Slot → Prop
  | .value v => v.Harmless
  | .unbound | .cell _ => True

/-- The values of the variables of a frame are harmless. -/
@[grind =]
def Locals.Harmless : Locals → Prop
  | .slots _ values => ∀ s ∈ values, s.Harmless
  | .variables _ => True

/-- An item on a stack is harmless. -/
@[grind =]
def Item.Harmless : Item → Prop
  | .value v => v.Harmless
  | .null | .code _ => True

/-- All items on the stack of an activation are harmless. -/
@[grind =]
def Activation.Harmless (a : Activation) : Prop := ∀ i ∈ a.stack, i.Harmless

/-- What is done with collected items is harmless. -/
@[grind =]
def Collection.Harmless : Collection → Prop
  | .contains v _ => v.Harmless
  | .extend .. | .unpack _ | .set | .list | .tuple | .choose => True

/-- All values that a task holds are harmless. -/
@[grind =]
def Task.Harmless : Task → Prop
  | .activation a => a.Harmless
  | .construct object => object.Harmless
  | .define _ parents _ => ∀ v ∈ parents, v.Harmless
  | .fetch fallback => ∀ v ∈ fallback, v.Harmless
  | .collect iterator items into => iterator.Harmless ∧ (∀ v ∈ items, v.Harmless) ∧ into.Harmless
  | .map function pending items =>
    function.Harmless ∧ (∀ v ∈ pending, v.Harmless) ∧ ∀ v ∈ items, v.Harmless
  | .loop _ | .raising | .report .. => True

/-- All values that a suspended function holds are harmless. -/
@[grind =]
def Generator.Harmless : Generator → Prop
  | .suspended a handled => a.Harmless ∧ handled.Harmless
  | .running | .finished => True

/-- All values that may be the answer to a request are harmless. -/
@[grind =]
def ChoiceRequest.Harmless : ChoiceRequest Value → Prop
  | .among items => ∀ v ∈ items, v.Harmless
  | .boolean | .within .. => True

/-- A process hands on harmless values only, and does not end with the signal to stop. -/
@[grind =]
def Mode.Harmless : Mode → Prop
  | .call callee arguments named =>
    callee.Harmless ∧ (∀ v ∈ arguments, v.Harmless) ∧ ∀ e ∈ named, e.2.Harmless
  | .choosing request => request.Harmless
  | .ask v | .deliver v | .unwind v | .handle v => v.Harmless
  | .ended ending => ending ≠ .stopped
  | .run | .waiting | .execute | .exhausted => True

/-- The class of the signal to stop cannot be got from a process. -/
structure Process.Harmless (p : Process) : Prop where
  heap : p.heap.Harmless
  frames : ∀ f ∈ p.scene.frames, f.locals.Harmless
  tasks : ∀ t ∈ p.tasks, t.Harmless
  generators : ∀ g ∈ p.generators, g.Harmless
  handled : ∀ v ∈ p.handled, v.Harmless
  mode : p.mode.Harmless

/-- A move leads to a harmless process, and is not the end by the signal to stop. -/
def Move.Harmless : Move Process → Prop
  | .internal p | .print _ p | .instruction _ p | .effect _ p | .choice _ p | .terminate p =>
    p.Harmless
  | .ended ending p => ending ≠ .stopped ∧ p.Harmless

/-! ### Stacks -/

namespace Activation

variable {a : Activation} {v : Value}

lemma Harmless.push (ha : a.Harmless) (hv : v.Harmless) : (a.push v).Harmless :=
  List.forall_mem_cons.mpr ⟨hv, ha⟩

lemma Harmless.drop (ha : a.Harmless) (n : Nat) : (a.drop n).Harmless :=
  fun i hi => ha i (List.mem_of_mem_drop hi)

lemma Harmless.jump (ha : a.Harmless) (c : CodeObject) (target : Nat) :
    (a.jump c target).Harmless := ha

lemma harmless_content {i : Item} (hi : i.Harmless) : i.content.Harmless := by
  cases i with
  | value v => exact hi
  | null | code _ => exact harmless_none

lemma Harmless.peek (ha : a.Harmless) (n : Nat) : (a.peek n).Harmless := by
  unfold Activation.peek
  cases hi : a.stack[n]? with
  | none => exact harmless_none
  | some i => exact harmless_content (ha i (List.mem_of_getElem? hi))

lemma Harmless.top (ha : a.Harmless) (n : Nat) : ∀ v ∈ a.top n, v.Harmless := by
  intro v hv
  obtain ⟨i, hi, rfl⟩ := List.mem_map.mp hv
  exact harmless_content (ha i (List.mem_of_mem_take (List.mem_reverse.mp hi)))

end Activation

/-! ### Changes of a process -/

namespace Process

variable {p : Process} {v : Value} {h : Heap} {r : Raised}

namespace Harmless

lemma withHeap (hp : p.Harmless) (hh : h.Harmless) : (p.withHeap h).Harmless :=
  ⟨hh, hp.frames, hp.tasks, hp.generators, hp.handled, hp.mode⟩

lemma allocate (hp : p.Harmless) {o : Obj} (ho : o.Harmless) : (p.allocate o).2.Harmless :=
  hp.withHeap (hp.heap.allocate ho)

lemma going (hp : p.Harmless) {m : Mode} (hm : m.Harmless) : (p.going m).Harmless :=
  ⟨hp.heap, hp.frames, hp.tasks, hp.generators, hp.handled, hm⟩

lemma deliver (hp : p.Harmless) (hv : v.Harmless) : (p.deliver v).Harmless :=
  hp.going (m := .deliver v) hv

lemma withTasks (hp : p.Harmless) {l : List Task} (hl : ∀ t ∈ l, t.Harmless) :
    { p with tasks := l }.Harmless :=
  ⟨hp.heap, hp.frames, hl, hp.generators, hp.handled, hp.mode⟩

lemma head (hp : p.Harmless) {t : Task} {rest : List Task} (ht : p.tasks = t :: rest) :
    t.Harmless ∧ ∀ t ∈ rest, t.Harmless := List.forall_mem_cons.mp (ht ▸ hp.tasks)

lemma push (hp : p.Harmless) {t : Task} (ht : t.Harmless) : (p.push t).Harmless :=
  hp.withTasks (List.forall_mem_cons.mpr ⟨ht, hp.tasks⟩)

lemma resume (hp : p.Harmless) {a : Activation} (ha : a.Harmless) {ts : List Task}
    (hts : ∀ t ∈ ts, t.Harmless) : (p.resume a ts).Harmless :=
  (hp.withTasks (l := .activation a :: ts) (List.forall_mem_cons.mpr ⟨ha, hts⟩)).going
    (m := .run) trivial

lemma throw (hp : p.Harmless) (hr : r.Harmless) : (p.throw r).Harmless :=
  (hp.withHeap (hp.heap.newException hr.1 hr.2)).going (m := .unwind _) (harmless_ref _)

lemma fail (hp : p.Harmless) (type text : String) : (p.fail type text).Harmless :=
  hp.throw (Raised.harmless_ofText _ _)

lemma topHandled (hp : p.Harmless) : p.topHandled.Harmless :=
  harmless_getD fun v hv => hp.handled v (List.mem_of_find?_eq_some hv)

lemma headD_handled (hp : p.Harmless) : (p.handled.headD .none).Harmless := by
  have h := hp.handled
  cases hl : p.handled with
  | nil => exact harmless_none
  | cons v vs => exact h v (hl ▸ List.mem_cons_self)

lemma setHandled (hp : p.Harmless) (hv : v.Harmless) : (p.setHandled v).Harmless :=
  ⟨hp.heap, hp.frames, hp.tasks, hp.generators,
    List.forall_mem_cons.mpr ⟨hv, fun v hv => hp.handled v (List.mem_of_mem_drop hv)⟩, hp.mode⟩

lemma mapFrame (hp : p.Harmless) {g : Frame → Frame}
    (hg : ∀ f : Frame, f.locals.Harmless → (g f).locals.Harmless) (f : FrameId) :
    (p.mapFrame f g).Harmless := by
  refine ⟨hp.heap, fun fr hfr => ?_, hp.tasks, hp.generators, hp.handled, hp.mode⟩
  obtain ⟨j, hj, rfl⟩ := Array.mem_iff_getElem.mp hfr
  have := hp.frames
  simp only [Process.mapFrame, Array.getElem_modify]
  grind

lemma addFrame (hp : p.Harmless) {f : Frame} (hf : f.locals.Harmless) :
    (p.addFrame f).2.Harmless :=
  ⟨hp.heap, Array.forall_mem_push.mpr ⟨hf, hp.frames⟩, hp.tasks, hp.generators, hp.handled,
    hp.mode⟩

lemma frame (hp : p.Harmless) {f : FrameId} {fr : Frame} (hf : p.scene.frame? f = some fr) :
    fr.locals.Harmless := hp.frames fr (Array.mem_of_getElem? hf)

end Harmless

/-! ## Variables -/

lemma harmless_environment? {name : String} (hv : environment? name = some v) : v.Harmless := by
  unfold environment? at hv
  grind [stopType]

namespace Harmless

lemma loadGlobal (hp : p.Harmless) (f : FrameId) (name : String) :
    Raised.Or Value.Harmless (p.loadGlobal f name) := by
  unfold Process.loadGlobal
  split
  · exact hp.heap.variables _ _ _ ‹_›
  · exact harmless_environment? ‹_›
  · exact Raised.harmless_ofText _ _

lemma loadName (hp : p.Harmless) (f : FrameId) (name : String) :
    Raised.Or Value.Harmless (p.loadName f name) := by
  unfold Process.loadName
  split
  · rename_i v hv
    obtain ⟨a, -, hv⟩ := Option.bind_eq_some_iff.mp hv
    exact hp.heap.variables a _ _ hv
  · exact hp.loadGlobal f name

lemma bindAt (hp : p.Harmless) (a : Address) (name : String) (hv : v.Harmless) :
    (p.bindAt a name v).Harmless :=
  hp.withHeap (hp.heap.setVariables ((hp.heap.variables a).set hv name) a)

lemma unbindAt (hp : p.Harmless) (a : Address) (name : String) :
    Raised.Or Process.Harmless (p.unbindAt a name) := by
  unfold Process.unbindAt
  split
  · exact hp.withHeap (hp.heap.setVariables ((hp.heap.variables a).erase name) a)
  · exact Raised.harmless_ofText _ _

lemma slot (hp : p.Harmless) (f : FrameId) (name : String) : (p.slot f name).Harmless := by
  unfold Process.slot
  split
  · rename_i fr hf
    have hfr := hp.frame hf
    split
    · rename_i names values hl
      rw [hl] at hfr
      cases hs : (names.findIdx? (· == name)).bind (values[·]?) with
      | none => trivial
      | some s =>
        obtain ⟨i, -, hi⟩ := Option.bind_eq_some_iff.mp hs
        exact hfr s (Array.mem_of_getElem? hi)
    · trivial
  · trivial

lemma slotValue? (hp : p.Harmless) {s : Slot} (hs : s.Harmless)
    (hv : p.scene.slotValue? s = some v) : v.Harmless := by
  unfold Scene.slotValue? at hv
  grind [hp.heap, Process.heap, Heap.Harmless]

lemma setSlot (hp : p.Harmless) {s : Slot} (hs : s.Harmless) (f : FrameId) (name : String) :
    (p.setSlot f name s).Harmless := by
  refine hp.mapFrame (fun fr hfr => ?_) f
  grind [Array.mem_or_eq_of_mem_setIfInBounds]

lemma loadSlot (hp : p.Harmless) (f : FrameId) (name : String) :
    Raised.Or Value.Harmless (p.loadSlot f name) := by
  unfold Process.loadSlot
  split
  · exact hp.slotValue? (hp.slot f name) ‹_›
  · exact Raised.harmless_ofText _ _

lemma deleteSlot (hp : p.Harmless) (f : FrameId) (name : String) :
    Raised.Or Process.Harmless (p.deleteSlot f name) := by
  unfold Process.deleteSlot
  split
  · exact hp.setSlot (s := .unbound) trivial f name
  · exact Raised.harmless_ofText _ _

lemma loadShared (hp : p.Harmless) (c : CodeObject) (a : Activation) (name : String) :
    Raised.Or Value.Harmless (p.loadShared c a name) := by
  unfold Process.loadShared
  split
  · rename_i v hv
    obtain ⟨cell, -, hv⟩ := Option.bind_eq_some_iff.mp hv
    exact hp.slotValue? (s := .cell cell) trivial hv
  · unfold unboundShared
    split <;> exact Raised.harmless_ofText _ _

lemma setShared (hp : p.Harmless) (a : Activation) (name : String) {o : Option Value}
    (ho : ∀ v ∈ o, v.Harmless) : (p.setShared a name o).Harmless := by
  unfold Process.setShared
  split
  · exact hp.withHeap (hp.heap.set (o := .cell o) ho _)
  · exact hp

lemma deleteShared (hp : p.Harmless) (c : CodeObject) (a : Activation) (name : String) :
    Raised.Or Process.Harmless (p.deleteShared c a name) := by
  have hl := hp.loadShared c a name
  unfold Process.deleteShared
  split
  · exact hp.setShared a name (by simp)
  · exact hl.of_error ‹_›

lemma makeCell (hp : p.Harmless) {a : Activation} (ha : a.Harmless) (name : String) :
    (p.makeCell a name).1.Harmless ∧ (p.makeCell a name).2.Harmless := by
  have hs := hp.slot a.frame name
  refine ⟨ha, (hp.allocate (o := .cell _) ?_).setSlot (s := .cell _) trivial _ _⟩
  grind

lemma copyCells (hp : p.Harmless) (c : CodeObject) {a : Activation} (ha : a.Harmless) :
    (p.copyCells c a).1.Harmless ∧ (p.copyCells c a).2.Harmless :=
  ⟨ha, List.foldlRecOn _ _ (motive := Process.Harmless) hp
    fun _ hq _ _ => hq.setSlot (s := .cell _) trivial _ _⟩

/-! ## Iterators -/

lemma supply? (hp : p.Harmless) (hv : v.Harmless) {type : String} {s : Supply}
    (hs : p.supply? v = some (type, s)) : s.Harmless := by
  have hv := hv.content
  unfold Process.supply? at hs
  grind [hp.heap]

lemma iterator (hp : p.Harmless) (hv : v.Harmless) :
    Raised.Or (fun r => r.1.Harmless ∧ r.2.Harmless) (p.iterator v) := by
  unfold Process.iterator notIterable
  split
  · exact ⟨hv, hp⟩
  · split
    · exact ⟨harmless_ref _, hp.allocate (o := .iterator _ _) (hp.supply? hv ‹_›)⟩
    · exact Raised.harmless_ofText _ _

end Harmless

lemma or_iterators {vs : List Value} (hvs : ∀ v ∈ vs, v.Harmless) :
    ∀ {p : Process}, p.Harmless →
      Raised.Or (fun r => (∀ v ∈ r.1, v.Harmless) ∧ r.2.Harmless) (p.iterators vs) := by
  induction vs with
  | nil => exact fun hp => ⟨by simp, hp⟩
  | cons v vs ih =>
    intro p hp
    obtain ⟨hv, hvs⟩ := List.forall_mem_cons.mp hvs
    have hi := hp.iterator hv
    rw [Process.iterators]
    split
    · exact hi.of_error ‹_›
    · obtain ⟨hi, hp⟩ := hi.of_ok ‹_›
      have his := ih hvs hp
      split
      · exact his.of_error ‹_›
      · obtain ⟨his, hp⟩ := his.of_ok ‹_›
        exact ⟨List.forall_mem_cons.mpr ⟨hi, his⟩, hp⟩

namespace Harmless

lemma resumeGenerator (hp : p.Harmless) (number : Nat) : (p.resumeGenerator number).Harmless := by
  unfold Process.resumeGenerator
  split
  · rename_i a handled hg
    obtain ⟨ha, hh⟩ : a.Harmless ∧ handled.Harmless := hp.generators _ (Array.mem_of_getElem? hg)
    have hp := hp.mapFrame (g := fun f => { f with caller := p.currentFrame }) (fun f hf => hf)
      a.frame
    refine ⟨hp.heap, hp.frames, List.forall_mem_cons.mpr ⟨ha.push harmless_none, hp.tasks⟩, ?_,
      List.forall_mem_cons.mpr ⟨hh, hp.handled⟩, trivial⟩
    intro g hg
    rcases Array.mem_or_eq_of_mem_setIfInBounds hg with hg | rfl
    · exact hp.generators g hg
    · trivial
  · exact hp.fail _ _
  · exact hp.going (m := .exhausted) trivial

/-- Asking an iterator for its next item: what it goes through from there on is harmless. -/
lemma ask (hp : p.Harmless) (v : Value) : (p.ask v).Harmless := by
  unfold Process.ask
  split
  · exact hp.resumeGenerator _
  · rename_i type supply a ho hc
    have hs : supply.Harmless := hp.heap.object ho
    have hset : ∀ {s : Supply}, s.Harmless →
        (p.withHeap (p.heap.set a (.iterator type s))).Harmless :=
      fun hs => hp.withHeap (hp.heap.set (o := .iterator type _) hs a)
    split
    · exact hp.going (m := .exhausted) trivial
    · obtain ⟨hv, hs⟩ := List.forall_mem_cons.mp hs
      exact (hset (s := .values _) hs).deliver hv
    · exact hp.going (m := .exhausted) trivial
    · exact (hset (s := .integers ..) trivial).deliver (harmless_int _)
    · split
      · rename_i items hl
        split
        · rename_i v hv
          exact (hset (s := .list ..) trivial).deliver
            (hp.heap _ (.list items) hl v (Array.mem_of_getElem? hv))
        · exact (hset (s := .values []) (by simp [Supply.Harmless])).going
            (m := .exhausted) trivial
      · exact hp.going (m := .exhausted) trivial
    · obtain ⟨hf, hs⟩ := hs
      split
      · exact hp.going (m := .exhausted) trivial
      · obtain ⟨hi, hs⟩ := List.forall_mem_cons.mp hs
        exact (hp.push (t := .map ..) ⟨hf, hs, by simp⟩).going (m := .ask _) hi
  · exact hp.fail _ _

lemma collect (hp : p.Harmless) (hv : v.Harmless) {c : Collection} (hc : c.Harmless) :
    (p.collect v c).Harmless := by
  have hit := hp.iterator hv
  unfold Process.collect
  split
  · rename_i i q hr
    obtain ⟨hv, hq⟩ := hit.of_ok hr
    exact (hq.push (t := .collect ..) ⟨hv, by simp, hc⟩).going (m := .ask i) hv
  · split
    · exact hp.fail _ _
    · exact hp.throw (hit.of_error ‹_›)

end Harmless

end Process

/-! ## Arguments -/

/-- The values of parameters are harmless. -/
def ParameterValues.Harmless (ps : ParameterValues) : Prop :=
  (∀ o ∈ ps.values, ∀ v ∈ o, v.Harmless) ∧ ∀ e ∈ ps.extra, e.2.Harmless

namespace CodeObject

variable {c : CodeObject}

lemma or_bindNamed {named : List (String × Value)} (hn : ∀ e ∈ named, e.2.Harmless) :
    ∀ {ps : ParameterValues}, ps.Harmless →
      Raised.Or ParameterValues.Harmless (c.bindNamed ps named) := by
  induction named with
  | nil => exact fun hps => hps
  | cons e named ih =>
    obtain ⟨name, v⟩ := e
    obtain ⟨hv, hn⟩ := List.forall_mem_cons.mp hn
    intro ps hps
    rw [bindNamed]
    split
    · split
      · exact Raised.harmless_ofText _ _
      · refine ih hn ⟨fun o ho => ?_, hps.2⟩
        rcases Array.mem_or_eq_of_mem_setIfInBounds ho with ho | rfl
        · exact hps.1 o ho
        · simpa using hv
    · split
      · exact ih hn ⟨hps.1, List.forall_mem_append.mpr ⟨hps.2, by simpa using hv⟩⟩
      · exact Raised.harmless_ofText _ _

lemma harmless_fillDefaults {values : Array (Option Value)}
    (hv : ∀ o ∈ values, ∀ v ∈ o, v.Harmless) {defaults : List Value}
    (hd : ∀ v ∈ defaults, v.Harmless) :
    ∀ o ∈ c.fillDefaults values defaults, ∀ v ∈ o, v.Harmless := by
  refine List.foldlRecOn _ _
    (motive := fun vs : Array (Option Value) => ∀ o ∈ vs, ∀ v ∈ o, v.Harmless) hv
    fun vs hvs k _ => ?_
  split
  · intro o ho v hov
    rcases Array.mem_or_eq_of_mem_setIfInBounds ho with ho | rfl
    · exact hvs o ho v hov
    · exact hd v (List.mem_of_getElem? hov)
  · exact hvs

/-- Arguments are bound to harmless values, the collected ones among them. -/
lemma or_bindArguments {defaults arguments : List Value} {named : List (String × Value)}
    (hd : ∀ v ∈ defaults, v.Harmless) (ha : ∀ v ∈ arguments, v.Harmless)
    (hn : ∀ e ∈ named, e.2.Harmless) :
    Raised.Or (fun r => (∀ v ∈ r.1, v.Harmless) ∧ ∀ e ∈ r.2, e.2.Harmless)
      (c.bindArguments defaults arguments named) := by
  unfold bindArguments
  simp only
  have hplaces : ∀ n, ParameterValues.Harmless
      ⟨((arguments.take c.argCount).map some ++ List.replicate n Option.none).toArray, []⟩ :=
    fun n => ⟨by grind, by simp⟩
  have hbound := fun n => or_bindNamed (c := c) hn (hplaces n)
  split
  · exact (hbound _).of_error ‹_›
  · obtain ⟨hvs, hes⟩ := (hbound _).of_ok ‹_›
    have hf := harmless_fillDefaults (c := c) hvs hd
    split
    · exact Raised.harmless_ofText _ _
    · split
      · exact Raised.harmless_ofText _ _
      · split
        · exact Raised.harmless_ofText _ _
        · refine ⟨fun v hv => ?_, hes⟩
          rcases List.mem_append.mp hv with hv | hv
          · obtain ⟨o, ho, rfl⟩ := List.mem_map.mp hv
            exact harmless_getD (hf o (Array.mem_toList_iff.mp ho))
          · split at hv
            · rw [List.mem_singleton.mp hv, harmless_tuple_iff]
              exact fun v hv => ha v (List.mem_of_mem_drop hv)
            · cases hv

end CodeObject

end StateAtlas
