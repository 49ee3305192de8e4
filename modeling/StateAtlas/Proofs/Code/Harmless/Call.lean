import StateAtlas.Code.Call
import StateAtlas.Proofs.Code.Harmless.Process

set_option autoImplicit false

/-!
# Calls that hide the signal to stop

A harmless process stays harmless when it calls a harmless value with harmless arguments: a function
of the program, a class, or one of the functions that a program finds in its environment. What the
program is told at a choice is among the values it has given.

## Main results

* `StateAtlas.Process.Harmless.enter` — entering a function.
* `StateAtlas.Process.Harmless.instantiate`, `StateAtlas.Process.Harmless.defineClass` — making an
  instance, and a class.
* `StateAtlas.Process.Harmless.callFunction`, `StateAtlas.Process.Harmless.callType` — built-in
  functions and classes.
* `StateAtlas.Process.Harmless.call` — all calls.
-/

namespace StateAtlas

open Value Heap

namespace Process

variable {p : Process} {v : Value} {h : Heap} {vs : List Value} {named : List (String × Value)}
  {codes : Array CodeObject} {file : String}

/-! ## Functions and classes of the program -/

lemma harmless_slots {c : CodeObject} (hvs : ∀ v ∈ vs, v.Harmless) :
    ∀ s ∈ slots c vs, s.Harmless := by
  unfold slots
  grind

namespace Harmless

lemma start (hp : p.Harmless) (c : CodeObject) (index : Nat) (globals : Address)
    (closure : List Address) {l : Locals} (hl : l.Harmless) :
    (p.start c index file globals closure l).Harmless := by
  refine ((hp.addFrame (f := _) ?_).push (t := .activation _) ?_).going (m := .run) trivial
  · exact hl
  · intro i hi
    cases hi

/-- The variables of a function that is entered are bound to the arguments. -/
lemma enter (hp : p.Harmless) {info : FunctionInfo} (hi : (Obj.function info).Harmless)
    (hvs : ∀ v ∈ vs, v.Harmless) (hn : ∀ e ∈ named, e.2.Harmless) :
    (p.enter codes file info vs named).Harmless := by
  unfold Process.enter
  split
  · exact hp.fail _ _
  · rename_i c hc
    have hb := c.or_bindArguments hi.1 hvs hn
    split
    · exact hp.throw (hb.of_error ‹_›)
    · obtain ⟨hvalues, hextra⟩ := hb.of_ok ‹_›
      simp only
      split
      · refine (hp.allocate (o := .dict _) ?_).start _ _ _ _ (harmless_slots ?_)
        · grind
        · exact List.forall_mem_append.mpr ⟨hvalues, by simp⟩
      · exact hp.start _ _ _ _ (harmless_slots hvalues)

lemma prepare (hp : p.Harmless) {type object : Value} (ho : object.Harmless)
    (hvs : ∀ v ∈ vs, v.Harmless) (hn : ∀ e ∈ named, e.2.Harmless) {without : Process → Process}
    (hw : (without p).Harmless) : (p.prepare type object vs named without).Harmless := by
  unfold Process.prepare
  split
  · exact (hp.push (t := .construct _) ho).going (m := .call ..)
      ⟨hp.heap.typeAttribute? ‹_›, List.forall_mem_cons.mpr ⟨ho, hvs⟩, hn⟩
  · exact hw

/-- A new object is an instance of the class that is called, which is harmless. -/
lemma instantiate (hp : p.Harmless) {type : Value} (ht : type.Harmless)
    (hvs : ∀ v ∈ vs, v.Harmless) (hn : ∀ e ∈ named, e.2.Harmless) :
    (p.instantiate type vs named).Harmless := by
  unfold Process.instantiate
  split
  · have hp := hp.withHeap (hp.heap.newException ht hvs)
    refine hp.prepare (harmless_ref _) hvs hn ?_
    split
    · exact hp.deliver (harmless_ref _)
    · exact hp.fail _ _
  · split
    · rename_i t _
      have hp := hp.allocate (o := .object t .empty) Bindings.harmless_empty
      refine hp.prepare (harmless_ref _) hvs hn ?_
      split
      · exact hp.deliver (harmless_ref _)
      · exact hp.fail _ _
    · exact hp.fail _ _

/-- A class that is defined has harmless attributes, and ancestors as harmless as its parents. -/
lemma defineClass (hp : p.Harmless) (name : String) {parents : List Value}
    (hps : ∀ v ∈ parents, v.Harmless) (body : Address) (v : Value) :
    (p.defineClass name parents body v).Harmless := by
  have hps : ∀ v ∈ (if parents.isEmpty then [ofType "object"] else parents), v.Harmless := by
    split
    · simp
    · exact hps
  have hown := ((hp.heap.variables body).erase "__qualname__").erase "__classcell__"
  have hdoc : ∀ b : Bindings Value, b.Harmless →
      (if b.contains "__doc__" then b else b.set "__doc__" .none).Harmless := by
    intro b hb
    split
    · exact hb
    · exact hb.set harmless_none _
  unfold Process.defineClass
  simp only
  split
  · exact hp.fail _ _
  · exact hp.fail _ _
  · rename_i ancestors _ hl
    have hp : ∀ qualname, (p.allocate (.type ⟨name, qualname, _, ancestors⟩)).2.Harmless :=
      fun _ => hp.allocate (o := .type _) ⟨hdoc _ hown, hp.heap.linearize hps hl⟩
    refine Harmless.deliver ?_ (harmless_ref _)
    split
    · exact (hp _).withHeap ((hp _).heap.set (o := .cell _) (by simp [Obj.Harmless]) _)
    · exact hp _

lemma buildClass (hp : p.Harmless) (hvs : ∀ v ∈ vs, v.Harmless) :
    (p.buildClass codes file vs).Harmless := by
  unfold Process.buildClass
  split
  · split
    · split
      · refine ((hp.allocate (o := .body .empty) Bindings.harmless_empty).push
          (t := .define ..) ?_).start _ _ _ _ (l := .variables _) trivial
        exact fun v hv => hvs v (List.mem_cons_of_mem _ (List.mem_cons_of_mem _ hv))
      · exact hp.fail _ _
    · exact hp.fail _ _
  · exact hp.fail _ _

/-! ## Built-in functions -/

lemma print (hp : p.Harmless) (vs : List Value) (named : List (String × Value)) :
    (p.print vs named).Harmless := by
  have hpart : ∀ name fallback, Raised.Or (fun _ => True) (p.printPart named name fallback) := by
    intro name fallback
    unfold printPart
    grind
  unfold Process.print
  split
  · exact hp.fail _ _
  · split
    · exact hp.throw ((hpart _ _).of_error ‹_›)
    · exact hp.throw ((hpart _ _).of_error ‹_›)
    · exact hp.throw (Raised.harmless_ofText _ _)
    · exact hp.deliver harmless_none

end Harmless

lemma or_insertSorted (hv : v.Harmless) (hvs : ∀ v ∈ vs, v.Harmless) :
    Raised.Or (fun r => ∀ v ∈ r, v.Harmless) (insertSorted h v vs) := by
  induction vs with
  | nil => exact by simpa [insertSorted, Raised.Or] using hv
  | cons x xs ih =>
    obtain ⟨hx, hxs⟩ := List.forall_mem_cons.mp hvs
    rw [insertSorted]
    split
    · exact (or_comparison _ _ _ _).of_error ‹_›
    · exact List.forall_mem_cons.mpr ⟨hv, hvs⟩
    · exact (ih hxs).map fun ys hys => List.forall_mem_cons.mpr ⟨hx, hys⟩

/-- Sorting harmless values.

**Proof sketch.** Induction on the values that are left, for any that have been sorted. -/
lemma or_sorted (hvs : ∀ v ∈ vs, v.Harmless) :
    Raised.Or (fun r => ∀ v ∈ r, v.Harmless) (sorted h vs) := by
  have hfold : ∀ {done : List Value}, (∀ v ∈ done, v.Harmless) → Raised.Or
      (fun r => ∀ v ∈ r, v.Harmless) (vs.foldlM (fun done v => insertSorted h v done) done) := by
    induction vs with
    | nil => exact fun hd => hd
    | cons v vs ih =>
      obtain ⟨hv, hvs⟩ := List.forall_mem_cons.mp hvs
      intro done hd
      have hi := or_insertSorted (h := h) hv hd
      rw [List.foldlM_cons]
      cases hr : insertSorted h v done with
      | error r => exact hi.of_error hr
      | ok done => exact ih hvs (hi.of_ok hr)
  exact hfold (by simp)

namespace Harmless

lemma sortList (hp : p.Harmless) (a : Address) {items : Array Value}
    (hi : ∀ v ∈ items, v.Harmless) (named : List (String × Value)) :
    (p.sortList a items named).Harmless := by
  unfold Process.sortList
  split
  · exact hp.fail _ _
  · have hs : ∀ {down : Bool}, Raised.Or (fun r => ∀ v ∈ r, v.Harmless)
        (sorted p.heap (if down then items.toList.reverse else items.toList)) :=
      fun {down} => or_sorted (by cases down <;> simpa using hi)
    simp only
    split
    · exact hp.throw (hs.of_error ‹_›)
    · have hvs := hs.of_ok ‹_›
      refine (hp.withHeap (hp.heap.set (o := .list _) ?_ a)).deliver harmless_none
      simp only [Obj.Harmless]
      grind

lemma popItem (hp : p.Harmless) (a : Address) {items : Array Value}
    (hi : ∀ v ∈ items, v.Harmless) (index : Value) : (p.popItem a items index).Harmless := by
  unfold Process.popItem
  split
  · exact hp.fail _ _
  · split
    · exact hp.fail _ _
    · split
      · exact hp.fail _ _
      · refine (hp.withHeap (hp.heap.set (o := .list _) ?_ a)).deliver
          (harmless_getD fun v hv => hi v (Array.mem_of_getElem? hv))
        simp only [Obj.Harmless, Array.eraseIdxIfInBounds]
        grind [Array.mem_of_mem_eraseIdx]

lemma callMethod (hp : p.Harmless) (name : String) {receiver : Value}
    (hvs : ∀ v ∈ vs, v.Harmless) (named : List (String × Value)) :
    (p.callMethod name receiver vs named).Harmless := by
  unfold Process.callMethod
  split
  · rename_i items a ho
    have hi : ∀ v ∈ items, v.Harmless := hp.heap.object ho
    split
    · refine (hp.withHeap (hp.heap.set (o := .list _) ?_ _)).deliver harmless_none
      simp only [Obj.Harmless]
      grind
    · exact hp.throw (Raised.harmless_ofText _ _)
    · exact hp.popItem _ hi _
    · exact hp.popItem _ hi _
    · exact hp.fail _ _
    · exact hp.sortList _ hi _
    · exact hp.fail _ _
  · rename_i items a ho
    have hi : ∀ v ∈ items, v.Harmless := hp.heap.object ho
    split
    · split
      · exact hp.fail _ _
      · exact (hp.withHeap (hp.heap.set (o := .set _ _)
          (harmless_addMember hi (hvs _ List.mem_cons_self)) _)).deliver harmless_none
    · exact hp.throw (Raised.harmless_ofText _ _)
  · exact hp.fail _ _

lemma request (hp : p.Harmless) {q : ChoiceRequest Value} (hq : q.Harmless) :
    (p.request q).Harmless := by
  unfold Process.request
  split
  · exact hp.going (m := .choosing q) hq
  · exact hp.fail _ _

lemma terminate (hp : p.Harmless) (vs : List Value) : (p.terminate vs).Harmless := by
  unfold Process.terminate
  split
  · split
    · exact hp.deliver harmless_none
    · exact hp.throw (Raised.harmless_ofText _ _)
  · exact hp.throw (Raised.harmless_ofText _ _)

end Harmless

/-- Parameters are taken from the arguments, by their places and by their names. -/
lemma harmless_parameters? {names : List String} {ws : List Value} (hvs : ∀ v ∈ vs, v.Harmless)
    (hn : ∀ e ∈ named, e.2.Harmless) (hw : parameters? names vs named = some ws) :
    ∀ v ∈ ws, v.Harmless := by
  unfold parameters? at hw
  split at hw
  · cases hw
  · obtain ⟨xs, hxs, rfl⟩ := Option.map_eq_some_iff.mp hw
    refine List.forall_mem_append.mpr ⟨hvs, ?_⟩
    clear hvs hw
    generalize names.drop vs.length = ns at hxs
    induction ns generalizing xs with
    | nil => simp_all
    | cons n ns ih =>
      simp only [List.mapM_cons, Option.bind_eq_bind, Option.bind_eq_some_iff, Option.pure_def,
        Option.some.injEq] at hxs
      obtain ⟨v, hv, ys, hys, rfl⟩ := hxs
      exact List.forall_mem_cons.mpr ⟨Bindings.harmless_find? hn hv, ih _ hys⟩

namespace Harmless

/-- The built-in functions, those of the library among them. -/
lemma callFunction (hp : p.Harmless) (name : String) (hvs : ∀ v ∈ vs, v.Harmless)
    (hn : ∀ e ∈ named, e.2.Harmless) : (p.callFunction codes file name vs named).Harmless := by
  unfold Process.callFunction
  split
  · exact hp.print _ _
  · exact hp.buildClass hvs
  · simp only [Move.Harmless]
    split
    · exact hp.deliver (harmless_int _)
    · exact hp.fail _ _
  · exact hp.throw (Raised.harmless_ofText _ _)
  · exact (hp.push (t := .fetch _) (by simp [Task.Harmless])).going (m := .ask _)
      (hvs _ (by simp))
  · exact (hp.push (t := .fetch _) (by simpa [Task.Harmless] using hvs _ (by simp))).going
      (m := .ask _) (hvs _ (by simp))
  · exact hp.fail _ _
  · rename_i v field x
    have hs : Raised.Or Heap.Harmless (p.heap.storeAttribute v field x) :=
      hp.heap.storeAttribute (hvs x (by simp))
    simp only [Move.Harmless]
    split
    · exact (hp.withHeap (hs.of_ok ‹_›)).deliver harmless_none
    · exact hp.throw (hs.of_error ‹_›)
  · exact hp.fail _ _
  · exact hp.fail _ _
  · split
    · exact hp.request (q := .boolean) trivial
    · exact hp.throw (Raised.harmless_ofText _ _)
  · split
    · exact hp.request (q := .within ..) trivial
    · exact hp.throw (Raised.harmless_ofText _ _)
  · split
    · exact hp.collect (harmless_parameters? hvs hn ‹_› _ (by simp)) (c := .choose) trivial
    · exact hp.throw (Raised.harmless_ofText _ _)
  · exact hp.terminate _
  · exact hp.callMethod _ (fun v hv => hvs v (List.mem_cons_of_mem _ hv)) _
  · exact hp.throw (Raised.harmless_ofText _ _)

/-! ## Built-in classes -/

lemma rangeOf (hp : p.Harmless) (vs : List Value) : (p.rangeOf vs).Harmless := by
  have hmade : ∀ i j k, (Process.rangeOf.made p i j k).Harmless := fun i j k =>
    (hp.allocate (o := .range i j k) trivial).deliver (harmless_ref _)
  unfold Process.rangeOf
  split
  · exact hp.fail _ _
  · exact hmade _ _ _
  · exact hmade _ _ _
  · split
    · exact hp.fail _ _
    · exact hmade _ _ _
  · exact hp.fail _ _

/-- The built-in classes. What they make are their own instances, or what the arguments hold. -/
lemma callType (hp : p.Harmless) {module name : String}
    (ht : (Value.builtin (.type module name)).Harmless) (hvs : ∀ v ∈ vs, v.Harmless)
    (hn : ∀ e ∈ named, e.2.Harmless) : (p.callType module name vs named).Harmless := by
  unfold Process.callType
  simp only
  split
  · exact hp.rangeOf _
  · exact (hp.allocate (o := .set false #[]) (by simp [Obj.Harmless])).deliver (harmless_ref _)
  · exact hp.collect (hvs _ (by simp)) trivial
  · exact hp.fail _ _
  · exact (hp.allocate (o := .list #[]) (by simp [Obj.Harmless])).deliver (harmless_ref _)
  · exact hp.collect (hvs _ (by simp)) trivial
  · exact hp.deliver (by simp)
  · exact hp.collect (hvs _ (by simp)) trivial
  · exact hp.deliver (hp.heap.typeOf _)
  · exact hp.fail _ _
  · rename_i f v vs
    obtain ⟨hf, hvs⟩ := List.forall_mem_cons.mp hvs
    have hi := or_iterators hvs hp
    split
    · obtain ⟨hs, hq⟩ := hi.of_ok ‹_›
      exact (hq.allocate (o := .iterator "map" (.mapped f _)) ⟨hf, hs⟩).deliver (harmless_ref _)
    · exact hp.throw (hi.of_error ‹_›)
  · exact hp.fail _ _
  · exact hp.deliver (harmless_bool _)
  · exact hp.deliver (harmless_bool _)
  · exact hp.deliver (harmless_str _)
  · split
    · exact hp.deliver (harmless_str _)
    · exact hp.throw (Raised.harmless_ofText _ _)
  · exact (hp.allocate (o := .sealed _) trivial).deliver (harmless_ref _)
  · exact hp.deliver (by simp)
  · exact hp.instantiate ht hvs hn

/-- **Calls.** A harmless process that calls a harmless value with harmless arguments stays
harmless. -/
lemma call (hp : p.Harmless) {callee : Value} (hc : callee.Harmless) (hvs : ∀ v ∈ vs, v.Harmless)
    (hn : ∀ e ∈ named, e.2.Harmless) : (p.call codes file callee vs named).Harmless := by
  unfold Process.call
  split
  · exact hp.callFunction _ hvs hn
  · exact hp.callType hc hvs hn
  · split
    · exact hp.enter (hp.heap.object ‹_›) hvs hn
    · rename_i receiver f ho
      obtain ⟨hr, hf⟩ : receiver.Harmless ∧ f.Harmless := hp.heap.object ho
      exact hp.going (m := .call ..) ⟨hf, List.forall_mem_cons.mpr ⟨hr, hvs⟩, hn⟩
    · exact hp.instantiate hc hvs hn
    · split
      · exact hp.going (m := .call ..)
          ⟨hp.heap.typeAttribute? ‹_›, List.forall_mem_cons.mpr ⟨hc, hvs⟩, hn⟩
      · exact hp.fail _ _
    · exact hp.fail _ _

end Harmless

end Process

end StateAtlas
