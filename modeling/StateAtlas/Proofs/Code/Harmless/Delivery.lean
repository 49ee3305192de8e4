import StateAtlas.Code.Delivery
import StateAtlas.Proofs.Code.Harmless.Call

set_option autoImplicit false

/-!
# Deliveries that hide the signal to stop

What is delivered to the topmost task of a harmless process is a harmless value, a harmless
exception or the end of an iterator, and the process stays harmless. An exception that leaves it
ends it, and not with the signal to stop.

## Main results

* `StateAtlas.Process.Harmless.receive`, `StateAtlas.Process.Harmless.receiveEnd` — a value and the
  end of an iterator.
* `StateAtlas.Process.Harmless.handle`, `StateAtlas.Process.Harmless.pass` — an exception.
* `StateAtlas.Process.Harmless.endingOf_ne`, `StateAtlas.Process.Harmless.leaveBy` — a harmless
  process is not left by the signal to stop.
-/

namespace StateAtlas

open Value Heap

namespace Process

variable {p : Process} {v : Value} {codes : Array CodeObject}

/-- The answer to a report is not the signal to stop. -/
lemma reportEnding_ne (p : Process) (type method : String) (v : Value) :
    p.reportEnding type method v ≠ .stopped := by
  unfold Process.reportEnding
  grind

/-- An exception as it leaves the run is not the signal to stop. -/
lemma departure_ne (p : Process) (e : Value) : p.departure e ≠ .stopped := nofun

namespace Harmless

/-! ## Values -/

lemma addItem (hp : p.Harmless) {iterator v : Value} {items : Array Value} {into : Collection}
    {rest : List Task} (hi : iterator.Harmless) (hitems : ∀ v ∈ items, v.Harmless)
    (hinto : into.Harmless) (hv : v.Harmless) (hrest : ∀ t ∈ rest, t.Harmless) :
    (p.addItem iterator items into v rest).Harmless := by
  have hmore := (hp.withTasks (l := .collect iterator (items.push v) into :: rest)
    (List.forall_mem_cons.mpr ⟨⟨hi, Array.forall_mem_push.mpr ⟨hv, hitems⟩, hinto⟩,
      hrest⟩)).going (m := .ask iterator) hi
  have hp := hp.withTasks hrest
  unfold Process.addItem
  simp only
  split
  · split
    · exact hp.fail _ _
    · exact hmore
  · split
    · exact hp.deliver (harmless_bool _)
    · exact hmore
  · split
    · exact hp.fail _ _
    · exact hmore
  · exact hmore

lemma pushAll (hp : p.Harmless) {vs : List Value} (hvs : ∀ v ∈ vs, v.Harmless) :
    (p.pushAll vs).Harmless := by
  unfold Process.pushAll
  split
  · obtain ⟨ha, hrest⟩ := hp.head ‹_›
    exact hp.resume (List.foldlRecOn _ _ (motive := Activation.Harmless) ha
      fun _ hb v hv => hb.push (hvs v (List.mem_reverse.mp hv))) hrest
  · exact hp.going (m := .run) trivial

lemma finishCollection (hp : p.Harmless) {items : Array Value} (hi : ∀ v ∈ items, v.Harmless)
    (into : Collection) : (p.finishCollection items into).Harmless := by
  cases into with
  | extend list result =>
    have hset : ∀ old, p.heap.get? list = some (.list old) →
        (p.withHeap (p.heap.set list (.list (old ++ items)))).Harmless := fun old ho =>
      hp.withHeap (hp.heap.set (o := .list _)
        (Array.forall_mem_append.mpr ⟨hp.heap _ (.list old) ho, hi⟩) _)
    simp only [Process.finishCollection, Move.Harmless]
    split <;> split
    · exact (hset _ ‹_›).deliver (harmless_ref _)
    · exact hp.deliver (harmless_ref _)
    · exact (hset _ ‹_›).going (m := .run) trivial
    · exact hp.going (m := .run) trivial
  | unpack count =>
    simp only [Process.finishCollection, Move.Harmless]
    split
    · exact hp.fail _ _
    · exact hp.pushAll (by simpa using hi)
  | set =>
    have hmembers := harmless_addMembers (h := p.heap) (l := items.toList) (by simpa using hi)
    exact (hp.allocate (o := .set ..) (by simpa [Obj.Harmless] using hmembers)).deliver
      (harmless_ref _)
  | list => exact (hp.allocate (o := .list _) hi).deliver (harmless_ref _)
  | tuple => exact hp.deliver (by simpa using hi)
  | contains v inverted => exact hp.deliver (harmless_bool _)
  | choose => exact hp.request (q := .among _) (by simpa [ChoiceRequest.Harmless] using hi)

/-- A harmless value arrives at the topmost task, whatever the task. -/
lemma receive (hp : p.Harmless) (hv : v.Harmless) : (p.receive v).Harmless := by
  unfold Process.receive
  split
  · exact hp.going (m := .ended .normal) (by simp [Mode.Harmless])
  all_goals
    rename_i rest ht
    obtain ⟨hτ, hrest⟩ := hp.head ht
  · exact hp.resume (Activation.Harmless.push hτ hv) hrest
  · have hp := hp.withTasks hrest
    simp only
    split
    · exact hp.deliver hτ
    · exact hp.fail _ _
  · exact (hp.withTasks hrest).defineClass _ hτ _ _
  · have hp := hp.withTasks hrest
    simp only
    split
    · exact hp.going (m := .unwind v) hv
    · exact hp.fail _ _
  · exact (hp.withTasks hrest).going (m := .ended _) (p.reportEnding_ne _ _ v)
  · exact (hp.withTasks hrest).deliver hv
  · exact (hp.withTasks hrest).deliver hv
  · obtain ⟨hi, hitems, hinto⟩ := hτ
    exact hp.addItem hi hitems hinto hv hrest
  · obtain ⟨hf, hpending, hitems⟩ := hτ
    have hitems := List.forall_mem_append.mpr ⟨hitems, List.forall_mem_singleton.mpr hv⟩
    simp only
    split
    · obtain ⟨hn, hpending⟩ := List.forall_mem_cons.mp hpending
      exact (hp.withTasks (l := .map .. :: rest)
        (List.forall_mem_cons.mpr ⟨⟨hf, hpending, hitems⟩, hrest⟩)).going (m := .ask _) hn
    · exact (hp.withTasks hrest).going (m := .call ..) ⟨hf, hitems, by simp⟩

/-! ## Ends of iterators -/

lemma leaveLoop (hp : p.Harmless) (target : Nat) : (p.leaveLoop codes target).Harmless := by
  unfold Process.leaveLoop
  split
  · obtain ⟨ha, hrest⟩ := hp.head ‹_›
    split
    · exact hp.resume (Activation.Harmless.jump (Activation.Harmless.drop ha 1) _ _) hrest
    · exact hp.going (m := .run) trivial
  · exact hp.going (m := .run) trivial

/-- The end of an iterator arrives at the topmost task. -/
lemma receiveEnd (hp : p.Harmless) : (p.receiveEnd codes).Harmless := by
  unfold Process.receiveEnd
  split
  · exact (hp.withTasks (hp.head ‹_›).2).leaveLoop _
  · obtain ⟨hf, hrest⟩ := hp.head ‹_›
    have hp := hp.withTasks hrest
    simp only [Move.Harmless]
    split
    · exact hp.deliver (hf _ rfl)
    · exact hp.throw ⟨harmless_ofType _, by simp⟩
  · obtain ⟨hτ, hrest⟩ := hp.head ‹_›
    exact (hp.withTasks hrest).finishCollection hτ.2.1 _
  · exact hp.withTasks (hp.head ‹_›).2
  · exact hp.deliver harmless_none

/-! ## Exceptions -/

/-- A task that is no activation passes an exception on, or takes it for the end of an iterator. -/
lemma pass (hp : p.Harmless) (hv : v.Harmless) : (p.pass v).Harmless := by
  have hdrop := (hp.withTasks (l := p.tasks.drop 1)
    fun t ht => hp.tasks t (List.mem_of_mem_drop ht)).going (m := .unwind v) hv
  unfold Process.pass
  split
  on_goal 5 => exact hdrop
  all_goals
    split
    · exact hp.going (m := .exhausted) trivial
    · exact hdrop

/-- A harmless process is not left by the signal to stop. -/
lemma endingOf_ne (hp : p.Harmless) (v : Value) : p.endingOf v ≠ .stopped := by
  unfold Process.endingOf
  simp only [hp.heap.isInstance_stop v]
  grind [departure_ne]

/-- The methods by which a class writes its instances are harmless, and so is what they are given
besides. -/
lemma reportMethod? (hp : p.Harmless) {name : String} {f : Value} {rest : List Value}
    (hm : p.reportMethod? v = some (name, f, rest)) : f.Harmless ∧ ∀ w ∈ rest, w.Harmless := by
  obtain ⟨⟨m, extra⟩, hmem, hf⟩ := List.exists_of_findSome?_eq_some hm
  obtain ⟨g, hg, he⟩ := Option.map_eq_some_iff.mp hf
  cases he
  refine ⟨hp.heap.typeAttribute? hg, ?_⟩
  simp only [reportMethods, List.mem_cons, Prod.mk.injEq, List.not_mem_nil, or_false] at hmem
  rcases hmem with ⟨-, rfl⟩ | ⟨-, rfl⟩ <;> simp

/-- A harmless exception that leaves the program ends it, or is written by a method of its class. -/
lemma leaveBy (hp : p.Harmless) (hv : v.Harmless) : (p.leaveBy v).Harmless := by
  unfold Process.leaveBy
  split
  · rename_i name f rest _ hm
    obtain ⟨hf, hrest⟩ := hp.reportMethod? hm
    refine (hp.push (t := .report ..) trivial).going (m := .call ..) ⟨hf, ?_, by simp⟩
    split
    · exact List.forall_mem_cons.mpr ⟨hv, hrest⟩
    · exact hrest
  · exact hp.going (m := .ended _) (hp.endingOf_ne v)

lemma finishGenerator (hp : p.Harmless) (f : FrameId) (number : Nat) :
    (p.finishGenerator f number).Harmless := by
  have hp := hp.mapFrame (g := fun f => { f with caller := none }) (fun f hf => hf) f
  refine ⟨hp.heap, hp.frames, hp.tasks, fun g hg => ?_,
    fun v hv => hp.handled v (List.mem_of_mem_drop hv), hp.mode⟩
  rcases Array.mem_or_eq_of_mem_setIfInBounds hg with hg | rfl
  · exact hp.generators g hg
  · trivial

/-- An activation goes on at a handler, with the exception on its stack, or is left. -/
lemma handle (hp : p.Harmless) (hv : v.Harmless) : (p.handle codes v).Harmless := by
  unfold Process.handle
  split
  · rename_i a rest ht
    obtain ⟨ha, hrest⟩ : a.Harmless ∧ _ := hp.head ht
    split
    · exact (hp.withTasks hrest).going (m := .unwind v) hv
    · simp only
      split
      · refine hp.resume ((Activation.Harmless.push ?_ hv).jump _ _) hrest
        split
        · exact (ha.drop _).push (harmless_int _)
        · exact ha.drop _
      · have hp := hp.withTasks hrest
        split
        · exact hp.going (m := .unwind v) hv
        · have hp := hp.finishGenerator a.frame ‹_›
          split
          · exact hp.fail _ _
          · exact hp.going (m := .unwind v) hv
  · exact hp.going (m := .unwind v) hv

end Harmless

end Process

end StateAtlas
