import StateAtlas.Code.Execute
import StateAtlas.Proofs.Code.Harmless.Delivery

set_option autoImplicit false

/-!
# Operations that hide the signal to stop

Every operation leaves a harmless process harmless: its operands are on the stack of the topmost
activation, and its result is computed from them, from the variables, from the constants of the code
and from the modules of the library. None of these is the class of the signal.

## Main definitions

* `StateAtlas.CodeContext.Harmless` — an operation finds a harmless process.

## Main results

* `StateAtlas.CodeContext.Harmless.executeVariable?` — the operations on variables.
* `StateAtlas.CodeContext.Harmless.executeValue?` — the operations on values.
* `StateAtlas.CodeContext.Harmless.execute` — all operations.
-/

namespace StateAtlas

open Value Heap

/-- What an operation finds is harmless. -/
structure CodeContext.Harmless (x : CodeContext) : Prop where
  process : x.process.Harmless
  activation : x.activation.Harmless
  rest : ∀ t ∈ x.rest, t.Harmless

namespace CodeContext

variable {x : CodeContext} {v : Value} {h : Heap} {p : Process} {a : Activation} {r : Raised}

namespace Harmless

/-! ## Results of operations -/

lemma goOn (hx : x.Harmless) (hp : p.Harmless) (ha : a.Harmless) : (x.goOn p a).Harmless :=
  hp.resume ha hx.rest

lemma result (hx : x.Harmless) (n : Nat) (hv : v.Harmless) : (x.result n v).Harmless :=
  hx.goOn hx.process ((hx.activation.drop n).push hv)

lemma resultIn (hx : x.Harmless) (n : Nat) (hv : v.Harmless) (hh : h.Harmless) :
    (x.resultIn n v h).Harmless :=
  hx.goOn (hx.process.withHeap hh) ((hx.activation.drop n).push hv)

lemma done (hx : x.Harmless) (n : Nat) (hp : p.Harmless) : (x.done n p).Harmless :=
  hx.goOn hp (hx.activation.drop n)

lemma throw (hx : x.Harmless) (hr : r.Harmless) : (x.throw r).Harmless := hx.process.throw hr

lemma resultOf (hx : x.Harmless) (n : Nat) {e : Except Raised Value}
    (he : Raised.Or Value.Harmless e) : (x.resultOf n e).Harmless := by
  cases e with
  | ok v => exact hx.result n he
  | error r => exact hx.throw he

lemma resultInOf (hx : x.Harmless) (n : Nat) {e : Except Raised (Value × Heap)}
    (he : Raised.Or Yields e) : (x.resultInOf n e).Harmless := by
  cases e with
  | ok r => exact hx.resultIn n he.1 he.2
  | error r => exact hx.throw he

lemma doneOf (hx : x.Harmless) (n : Nat) {e : Except Raised Process}
    (he : Raised.Or Process.Harmless e) : (x.doneOf n e).Harmless := by
  cases e with
  | ok p => exact hx.done n he
  | error r => exact hx.throw he

lemma wait (hx : x.Harmless) (n : Nat) : (x.wait n).Harmless :=
  hx.process.withTasks (List.forall_mem_cons.mpr ⟨hx.activation.drop n, hx.rest⟩)

lemma peek (hx : x.Harmless) (n : Nat) : (x.peek n).Harmless := hx.activation.peek n

/-! ## Variables -/

lemma pushItem (hx : x.Harmless) {i : Item} (hi : i.Harmless) : (x.pushItem i).Harmless :=
  hx.goOn hx.process (List.forall_mem_cons.mpr ⟨hi, hx.activation⟩)

lemma swap (hx : x.Harmless) (n : Nat) : (x.swap n).Harmless := by
  have ha := hx.activation
  unfold CodeContext.swap
  simp only
  split
  · rename_i top below item htop hitem
    refine hx.goOn hx.process fun i hi => ?_
    rcases List.mem_or_eq_of_mem_set hi with hi | rfl
    · rcases List.mem_or_eq_of_mem_set hi with hi | rfl
      · exact ha i hi
      · exact ha _ (List.mem_of_getElem? hitem)
    · exact ha _ (htop ▸ List.mem_cons_self)
  · exact hx.goOn hx.process ha

/-- The operations on variables and on the stack. -/
lemma executeVariable? (hx : x.Harmless) {op : Operation}
    (hp : x.executeVariable? op = some p) : p.Harmless := by
  have hproc := hx.process
  have ha := hx.activation
  cases op <;> simp only [CodeContext.executeVariable?, Option.some.injEq, reduceCtorEq] at hp <;>
    subst hp
  case resume | idle => exact hx.goOn hproc ha
  case popTop => exact hx.done 1 hproc
  case copy n =>
    refine hx.pushItem ?_
    cases hi : x.activation.stack[n - 1]? with
    | none => trivial
    | some i => exact ha i (List.mem_of_getElem? hi)
  case swap n => exact hx.swap n
  case pushNull => exact hx.pushItem trivial
  case loadConstant l index =>
    obtain ⟨hv, hh⟩ :=
      Literal.yields_plant hproc.heap (l.settle [x.activation.code, index])
    exact hx.resultIn 0 hv hh
  case loadCode index => exact hx.pushItem trivial
  case loadName name => exact hx.resultOf 0 (hproc.loadName _ _)
  case storeName name => exact hx.done 1 (hproc.bindAt _ _ (hx.peek 0))
  case deleteName name => exact hx.doneOf 0 (hproc.unbindAt _ _)
  case loadGlobal name null =>
    have hl := hproc.loadGlobal x.activation.frame name
    split
    · exact hx.throw (hl.of_error ‹_›)
    · refine hx.goOn hproc
        (List.forall_mem_cons.mpr ⟨hl.of_ok ‹_›, List.forall_mem_append.mpr ⟨?_, ha⟩⟩)
      cases null <;> simp [Item.Harmless]
  case storeGlobal name => exact hx.done 1 (hproc.bindAt _ _ (hx.peek 0))
  case deleteGlobal name => exact hx.doneOf 0 (hproc.unbindAt _ _)
  case loadFast name => exact hx.resultOf 0 (hproc.loadSlot _ _)
  case storeFast name => exact hx.done 1 (hproc.setSlot (s := .value _) (hx.peek 0) _ _)
  case deleteFast name => exact hx.doneOf 0 (hproc.deleteSlot _ _)
  case loadShared name => exact hx.resultOf 0 (hproc.loadShared _ _ _)
  case storeShared name => exact hx.done 1 (hproc.setShared _ _ (by simpa using hx.peek 0))
  case deleteShared name => exact hx.doneOf 0 (hproc.deleteShared _ _ _)
  case loadCell name =>
    refine hx.result 0 ?_
    cases Bindings.find? name x.activation.cells <;> simp
  case makeCell name =>
    obtain ⟨ha, hp⟩ := hproc.makeCell ha name
    exact hx.goOn hp ha
  case copyFreeVariables =>
    obtain ⟨ha, hp⟩ := hproc.copyCells x.code ha
    exact hx.goOn hp ha

/-! ## Values -/

lemma loadMethod (hx : x.Harmless) (name : String) : (x.loadMethod name).Harmless := by
  have hl := hx.process.heap.loadMethod (hx.peek 0) name
  unfold CodeContext.loadMethod
  split
  · exact hx.throw (hl.of_error ‹_›)
  · obtain ⟨hf, hr⟩ := hl.of_ok ‹_›
    simp only
    split
    · exact hx.goOn hx.process (((hx.activation.drop 1).push hf).push (hr _ rfl))
    · exact hx.goOn hx.process (Activation.Harmless.push
        (List.forall_mem_cons.mpr ⟨trivial, hx.activation.drop 1⟩) hf)

lemma extendList (hx : x.Harmless) (n : Nat) : (x.extendList n).Harmless := by
  have hi := hx.process.iterator (hx.peek 0)
  unfold CodeContext.extendList
  simp only
  split
  · rename_i a i p _ hr
    obtain ⟨hi, hp⟩ := hi.of_ok hr
    have hp := hp.withTasks (l := .activation _ :: x.rest)
      (List.forall_mem_cons.mpr ⟨hx.activation.drop 1, hx.rest⟩)
    exact (hp.push (t := .collect i #[] (.extend a false)) ⟨hi, by simp, trivial⟩).going
      (m := .ask i) hi
  · exact hx.process.fail _ _

lemma appendList (hx : x.Harmless) (n : Nat) : (x.appendList n).Harmless := by
  unfold CodeContext.appendList
  simp only
  split
  · rename_i a items _ ho
    refine hx.done 1 (hx.process.withHeap (hx.process.heap.set (o := .list _) ?_ a))
    exact Array.forall_mem_push.mpr ⟨hx.peek 0, hx.process.heap.object ho⟩
  · exact hx.done 1 hx.process

end Harmless

lemma harmless_pairs : ∀ {vs : List Value}, (∀ v ∈ vs, v.Harmless) →
    ∀ e ∈ pairs vs, e.1.Harmless ∧ e.2.Harmless
  | [], _ | [_], _ => by simp [pairs]
  | k :: v :: rest, hvs => by
    obtain ⟨hk, hv, hrest⟩ : _ ∧ _ ∧ _ := by simpa using hvs
    exact List.forall_mem_cons.mpr ⟨⟨hk, hv⟩, harmless_pairs hrest⟩

lemma harmless_itemsOf (hv : v.Harmless) : ∀ w ∈ itemsOf v, w.Harmless := by
  unfold itemsOf
  split
  · exact harmless_tuple_iff.mp hv
  · simp

/-- No module of the library gives the class of the signal away. -/
lemma harmless_libraryModule? {name : String} {l : List (String × Value)}
    (hl : libraryModule? name = some l) : ∀ e ∈ l, e.2.Harmless := by
  unfold libraryModule? at hl
  split at hl <;> cases hl <;> simp [stopType]

namespace Harmless

lemma format (hx : x.Harmless) (flags : Nat) : (x.format flags).Harmless := by
  unfold CodeContext.format
  simp only
  split
  · exact hx.result _ (harmless_str _)
  · exact hx.throw (Raised.harmless_ofText _ _)

lemma operate (hx : x.Harmless) (op : Operator) (inPlace : Bool) :
    (x.operate op inPlace).Harmless := by
  have hh := hx.process.heap
  have happly := fun inPlace => hh.apply op inPlace (hx.peek 1) (hx.peek 0)
  unfold CodeContext.operate
  simp only
  split
  · exact (hx.wait 2).collect (hx.peek 0) trivial
  -- lists and sets that are changed in place keep their address
  on_goal 3 => exact hx.resultInOf 2 (happly _)
  all_goals
    split
    · obtain ⟨hv, hh⟩ := (happly true).of_ok ‹_›
      split
      · exact hx.resultIn 2 (hx.peek 1) (hh.set (hh.object ‹_›) _)
      · exact hx.resultIn 2 hv hh
    · exact hx.throw ((happly true).of_error ‹_›)

lemma membership (hx : x.Harmless) (inverted : Bool) : (x.membership inverted).Harmless := by
  unfold CodeContext.membership
  simp only
  split
  · exact hx.result 2 (harmless_bool _)
  · exact (hx.wait 2).collect (hx.peek 0) (hx.peek 1)
  · exact hx.throw ((or_contains _ _ _).of_error ‹_›)

/-- The operations on values. -/
lemma executeValue? (hx : x.Harmless) {op : Operation} (hp : x.executeValue? op = some p) :
    p.Harmless := by
  have hproc := hx.process
  have hh := hproc.heap
  have ha := hx.activation
  cases op <;> simp only [CodeContext.executeValue?, Option.some.injEq, reduceCtorEq] at hp <;>
    subst hp
  case loadAttribute name => exact hx.resultInOf 1 (hh.loadAttribute (hx.peek 0))
  case storeAttribute name =>
    exact hx.doneOf 2 ((hh.storeAttribute (hx.peek 1)).map fun _ => hproc.withHeap)
  case deleteAttribute name => exact hx.doneOf 1 (hh.deleteAttribute.map fun _ => hproc.withHeap)
  case loadMethod name => exact hx.loadMethod name
  case subscript => exact hx.resultOf 2 (hh.item (hx.peek 1) (hx.peek 0))
  case storeSubscript =>
    exact hx.doneOf 3 ((hh.setItem (hx.peek 0) (hx.peek 2)).map fun _ => hproc.withHeap)
  case buildTuple n => exact hx.result n (harmless_tuple_iff.mpr (ha.top n))
  case buildList n =>
    obtain ⟨hv, hh⟩ := hh.newList (l := (x.activation.top n).toArray) (by simpa using ha.top n)
    exact hx.resultIn n hv hh
  case extendList n => exact hx.extendList n
  case appendList n => exact hx.appendList n
  case buildMap n => exact hx.resultInOf _ (hh.mapOf (harmless_pairs (ha.top _)))
  case buildMapOfKeys n =>
    refine hx.resultInOf _ (hh.mapOf fun e he => ?_)
    exact ⟨harmless_itemsOf (hx.peek 0) _ (List.of_mem_zip he).1,
      (ha.drop 1).top n _ (List.of_mem_zip he).2⟩
  case buildText n => exact hx.result n (harmless_str _)
  case format flags => exact hx.format flags
  case unpack n => exact (hx.wait 1).collect (hx.peek 0) trivial
  case binary op inPlace => exact hx.operate op inPlace
  case not => exact hx.result 1 (harmless_bool _)
  case negate => exact hx.resultInOf 1 (hh.negated _)
  case compare c => exact hx.resultOf 2 ((or_comparison _ _ _ _).map fun b _ => harmless_bool b)
  case same inverted => exact hx.result 2 (harmless_bool _)
  case contains inverted => exact hx.membership inverted

/-! ## Calls, functions and modules -/

lemma call (hx : x.Harmless) (n : Nat) : (x.call n).Harmless := by
  have ha := hx.activation
  refine (hx.process.withTasks (l := .activation _ :: x.rest)
    (List.forall_mem_cons.mpr ⟨?_, hx.rest⟩)).going (m := .call ..) ⟨?_, ?_, ?_⟩
  · exact ha.drop (n + 2)
  · split <;> exact ha.peek _
  · exact fun v hv => ha.top _ v (List.mem_of_mem_take hv)
  · exact fun e he => ha.top _ _ (List.mem_of_mem_drop (List.of_mem_zip he).2)

lemma makeFunction (hx : x.Harmless) (flags : Nat) : (x.makeFunction flags).Harmless := by
  have hitems : ∀ {c : Prop} [Decidable c] (n : Nat),
      ∀ v ∈ (if c then itemsOf (x.activation.peek n) else []), v.Harmless := by
    intro c _ n
    split
    · exact harmless_itemsOf (hx.activation.peek n)
    · simp
  exact hx.resultIn _ (harmless_ref _) (hx.process.heap.allocate (o := .function _)
    ⟨hitems _, Bindings.harmless_empty⟩)

lemma importModule (hx : x.Harmless) (name : String) : (x.importModule name).Harmless := by
  unfold CodeContext.importModule
  split
  · exact hx.result 2 (harmless_ref _)
  · rename_i bindings _ hb
    have hp := hx.process.withHeap
      (hx.process.heap.plantModule (harmless_libraryModule? hb) name)
    exact hx.goOn ⟨hp.heap, hp.frames, hp.tasks, hp.generators, hp.handled, hp.mode⟩
      ((hx.activation.drop 2).push (harmless_ref _))
  · exact hx.process.fail _ _

lemma importFrom (hx : x.Harmless) (name : String) : (x.importFrom name).Harmless := by
  unfold CodeContext.importFrom
  simp only
  split
  · exact hx.result 0 (hx.process.heap.ownAttribute? ‹_›)
  · exact hx.process.fail _ _

lemma leave (hx : x.Harmless) : x.leave.Harmless := by
  have hp := hx.process.withTasks hx.rest
  unfold CodeContext.leave
  simp only [Move.Harmless]
  split
  · exact hp.deliver (hx.peek 0)
  · exact (hp.finishGenerator _ _).going (m := .exhausted) trivial

lemma makeGenerator (hx : x.Harmless) : x.makeGenerator.Harmless := by
  have hp := (hx.process.allocate (o := .generator x.process.generators.size) trivial).mapFrame
    (g := fun f => { f with caller := none }) (fun f hf => hf) x.activation.frame
  exact ⟨hp.heap, hp.frames, hx.rest,
    Array.forall_mem_push.mpr ⟨⟨hx.activation, harmless_none⟩, hp.generators⟩, hp.handled,
    harmless_ref _⟩

lemma suspend (hx : x.Harmless) : x.suspend.Harmless := by
  have hp := hx.process.mapFrame (g := fun f => { f with caller := none }) (fun f hf => hf)
    x.activation.frame
  unfold CodeContext.suspend
  simp only
  refine ⟨hp.heap, hp.frames, hx.rest, ?_, fun v hv => hp.handled v (List.mem_of_mem_drop hv),
    hx.peek 0⟩
  simp only
  split
  · intro g hg
    rcases Array.mem_or_eq_of_mem_setIfInBounds hg with hg | rfl
    · exact hp.generators g hg
    · exact ⟨hx.activation.drop 1, hp.headD_handled⟩
  · exact hp.generators

/-! ## Exceptions -/

lemma raiseValue (hx : x.Harmless) (hv : v.Harmless) : (x.raiseValue v).Harmless := by
  unfold CodeContext.raiseValue
  simp only
  split
  · exact (hx.process.push (t := .raising) trivial).going (m := .call ..)
      ⟨hv, by simp, by simp⟩
  · split
    · exact hx.process.going (m := .unwind v) hv
    · exact hx.process.fail _ _

lemma raise (hx : x.Harmless) (n : Nat) : (x.raise n).Harmless := by
  unfold CodeContext.raise
  split
  · split
    · exact hx.process.fail _ _
    · exact hx.process.going (m := .handle _) hx.process.topHandled
  · exact hx.raiseValue (hx.peek 0)
  · simp only
    split
    · exact hx.raiseValue (hx.peek 1)
    · exact hx.process.fail _ _

lemma pushHandled (hx : x.Harmless) : x.pushHandled.Harmless :=
  hx.goOn (hx.process.setHandled (hx.peek 0))
    (((hx.activation.drop 1).push hx.process.headD_handled).push (hx.peek 0))

lemma matchException (hx : x.Harmless) : x.matchException.Harmless := by
  unfold CodeContext.matchException
  simp only
  split
  all_goals
    split
    · exact hx.result 1 (harmless_bool _)
    · exact hx.process.fail _ _

/-! ## All operations -/

lemma jumpWhen (hx : x.Harmless) (on : Bool) (target : Nat) : (x.jumpWhen on target).Harmless := by
  refine hx.goOn hx.process ?_
  split
  · exact (hx.activation.drop 1).jump _ _
  · exact hx.activation.drop 1

lemma jumpOrPop (hx : x.Harmless) (on : Bool) (target : Nat) :
    (x.jumpOrPop on target).Harmless := by
  refine hx.goOn hx.process ?_
  split
  · exact hx.activation.jump _ _
  · exact hx.activation.drop 1

/-- **Operations.** Whatever operation is executed, it leads to a harmless process. -/
lemma execute (hx : x.Harmless) (op : Operation) : (x.execute op).Harmless := by
  have hp := hx.process
  have ha := hx.activation
  unfold CodeContext.execute
  split
  · exact hx.executeVariable? ‹_›
  · exact hx.executeValue? ‹_›
  · split
    · exact hx.goOn hp (ha.jump _ _)
    · exact hx.jumpWhen _ _
    · exact hx.jumpOrPop _ _
    · have hi := hp.iterator (hx.peek 0)
      simp only [Move.Harmless]
      split
      · obtain ⟨hv, hp⟩ := hi.of_ok ‹_›
        exact hx.goOn hp ((ha.drop 1).push hv)
      · exact hx.throw (hi.of_error ‹_›)
    · exact (hp.push (t := .loop _) trivial).going (m := .ask _) (hx.peek 0)
    · exact hx.goOn hp ha
    · exact hx.call _
    · exact hx.makeFunction _
    · exact hx.result 0 (by simp [stopType])
    · exact hx.leave
    · exact hx.makeGenerator
    · exact hx.suspend
    · exact hx.importModule _
    · exact hx.importFrom _
    · exact hx.raise _
    · exact hp.going (m := .handle _) (hx.peek 0)
    · exact hx.pushHandled
    · exact hx.done 1 (hp.setHandled (hx.peek 0))
    · exact hx.matchException
    · exact hx.result 0 (harmless_ofType _)
    · exact hp.fail _ _

end Harmless

end CodeContext

end StateAtlas
