import StateAtlas.Code.Subscript
import StateAtlas.Proofs.Code.Harmless.Heap

set_option autoImplicit false

/-!
# What is computed from harmless values

Items of containers, results of operators and planted literals are harmless if the operands and the
heap are. The exceptions that arise instead come with texts, and with a key that has not been found.

## Main results

* `StateAtlas.Heap.Harmless.item`, `StateAtlas.Heap.Harmless.setItem` — items of containers.
* `StateAtlas.Heap.Harmless.apply` — results of binary operators.
* `StateAtlas.Literal.yields_plant` — literals.
-/

namespace StateAtlas

open Value

namespace Heap

variable {h : Heap} {v x : Value}

/-! ## Containers -/

lemma harmless_setEntry {es : Array (Value × Value)}
    (hes : ∀ e ∈ es, e.1.Harmless ∧ e.2.Harmless) (hv : v.Harmless) (hx : x.Harmless) :
    ∀ e ∈ h.setEntry es v x, e.1.Harmless ∧ e.2.Harmless := by
  unfold Heap.setEntry
  split
  · intro e he
    obtain ⟨j, hj, rfl⟩ := Array.mem_iff_getElem.mp he
    rw [Array.getElem_modify]
    grind
  · grind

/-- The entries of a dictionary that is made of harmless pairs. -/
lemma harmless_setEntries {es : List (Value × Value)}
    (hes : ∀ e ∈ es, e.1.Harmless ∧ e.2.Harmless) :
    ∀ e ∈ es.foldl (fun (d : Array (Value × Value)) e => h.setEntry d e.1 e.2) #[],
      e.1.Harmless ∧ e.2.Harmless := by
  refine List.foldlRecOn es _
    (motive := fun d : Array (Value × Value) => ∀ e ∈ d, e.1.Harmless ∧ e.2.Harmless) (by simp)
    fun d hd e he => ?_
  exact harmless_setEntry hd (hes e he).1 (hes e he).2

lemma harmless_addMember {vs : Array Value} (hvs : ∀ v ∈ vs, v.Harmless) (hv : v.Harmless) :
    ∀ x ∈ h.addMember vs v, x.Harmless := by
  unfold addMember
  grind

/-- The members of a set that is made of harmless values. -/
lemma harmless_addMembers {l : List Value} (hl : ∀ v ∈ l, v.Harmless) :
    ∀ v ∈ l.foldl h.addMember #[], v.Harmless := by
  refine List.foldlRecOn l _ (motive := fun d : Array Value => ∀ v ∈ d, v.Harmless) (by simp)
    fun d hd v hv => ?_
  exact harmless_addMember hd (hl v hv)

lemma or_position (h : Heap) (kind action : String) (v : Value) (n : Nat) :
    Raised.Or (fun _ => True) (h.position kind action v n) := by
  unfold position
  grind

/-- An item is harmless. A key that is not found is the argument of the exception. -/
lemma Harmless.item (hh : h.Harmless) (hv : v.Harmless) (hx : x.Harmless) :
    Raised.Or Value.Harmless (h.item v x) := by
  have hv := hv.content
  unfold Heap.item
  split
  · rename_i items hc
    rw [hc, harmless_tuple_iff] at hv
    exact (or_position h _ _ _ _).map fun _ _ =>
      harmless_getD fun v hi => hv v (List.mem_of_getElem? hi)
  · exact (or_position h _ _ _ _).map fun _ _ => harmless_str _
  · exact (or_position h _ _ _ _).map fun _ _ => harmless_int _
  · split
    · rename_i items ho
      exact (or_position h _ _ _ _).map fun _ _ =>
        harmless_getD fun v hi => hh.object ho v (Array.mem_of_getElem? hi)
    · rename_i start stop step _
      have hp := or_position h "range" "object index" x (rangeLength start stop step)
      generalize h.position "range" "object index" x (rangeLength start stop step) = r at hp ⊢
      cases r with
      | ok k => exact harmless_int _
      | error r => exact hp
    · rename_i entries ho
      split
      · grind [unhashable]
      · split
        · rename_i k w hw
          obtain ⟨i, -, hi⟩ := Option.bind_eq_some_iff.mp hw
          exact (hh.object ho _ (Array.mem_of_getElem? hi)).2
        · exact ⟨harmless_ofType _, by simpa using hx⟩
    · exact Raised.harmless_ofText _ _

lemma Harmless.setItem (hh : h.Harmless) {w : Value} (hx : x.Harmless) (hw : w.Harmless) :
    Raised.Or Heap.Harmless (h.setItem v x w) := by
  unfold Heap.setItem
  split
  · rename_i items a ho hc
    exact (or_position h _ _ _ _).map fun _ _ =>
      hh.set (o := .list _) (by grind [Array.mem_or_eq_of_mem_setIfInBounds]) a
  · rename_i entries a ho hc
    split
    · grind [unhashable]
    · exact hh.set (o := .dict _) (harmless_setEntry (hh.object ho) hx hw) a
  · grind

lemma Harmless.mapOf (hh : h.Harmless) {es : List (Value × Value)}
    (hes : ∀ e ∈ es, e.1.Harmless ∧ e.2.Harmless) : Raised.Or Yields (h.mapOf es) := by
  unfold Heap.mapOf
  split
  · grind [unhashable]
  · exact ⟨harmless_ref _, hh.allocate (o := .dict _) (harmless_setEntries hes)⟩

lemma or_contains (h : Heap) (v x : Value) :
    Raised.Or (fun _ => True) (h.contains? v x) := by
  unfold contains? unhashable
  grind

/-! ## Operators -/

lemma or_onIntegers (op : Operator) (i j : Int) :
    Raised.Or Value.Harmless (op.onIntegers i j) := by
  unfold Operator.onIntegers Operator.zeroDivision
  grind

lemma or_onFloats {op : Operator} {x y : Float} {r : Except Raised Value}
    (hr : op.onFloats? x y = some r) : Raised.Or Value.Harmless r := by
  unfold Operator.onFloats? Operator.zeroDivision at hr
  grind

lemma harmless_onSets {op : Operator} {as bs vs : Array Value} (has : ∀ v ∈ as, v.Harmless)
    (hbs : ∀ v ∈ bs, v.Harmless) (hr : op.onSets? h as bs = some vs) : ∀ v ∈ vs, v.Harmless := by
  unfold Operator.onSets? at hr
  grind

/-- A value that has just come about is harmless. -/
lemma Harmless.settle (hh : h.Harmless) (hv : v.Harmless) : Yields (h.settle v) := by
  unfold Heap.settle
  split
  · exact ⟨harmless_nan_iff.mpr hv, hh.allocate (o := .sealed _) trivial⟩
  · exact ⟨hv, hh⟩

lemma Harmless.newList (hh : h.Harmless) {l : Array Value} (hl : ∀ v ∈ l, v.Harmless) :
    Yields (Operator.newList h l) := ⟨harmless_ref _, hh.allocate (o := .list l) hl⟩

lemma Harmless.joined (hh : h.Harmless) (op : Operator) (inPlace : Bool) (hv : v.Harmless)
    (hx : x.Harmless) : Raised.Or Yields (op.joined inPlace h v x) := by
  have hv := hv.content
  have hx := hx.content
  unfold Operator.joined Operator.notJoined Operator.mismatch
  split
  · exact ⟨harmless_str _, hh⟩
  · exact Raised.harmless_ofText _ _
  · exact ⟨harmless_bytes _, hh⟩
  · exact ⟨by grind, hh⟩
  · exact Raised.harmless_ofText _ _
  · split
    · exact hh.newList (by grind)
    · exact Raised.harmless_ofText _ _
    · exact Raised.harmless_ofText _ _

lemma harmless_repeated {items : List Value} (hi : ∀ v ∈ items, v.Harmless) (n : Int) :
    ∀ v ∈ Operator.repeated items n, v.Harmless := by
  intro v hm
  simp only [Operator.repeated, List.mem_flatten, List.mem_replicate] at hm
  grind

lemma Harmless.repeatedSequence (hh : h.Harmless) (hv : v.Harmless) {n : Int} {r : Value × Heap}
    (hr : Operator.repeatedSequence? h v n = some r) : Yields r := by
  have hv := hv.content
  unfold Operator.repeatedSequence? at hr
  split at hr
  · exact Option.some.inj hr ▸ ⟨harmless_str _, hh⟩
  · exact Option.some.inj hr ▸ ⟨harmless_bytes _, hh⟩
  · exact Option.some.inj hr ▸ ⟨by grind [harmless_repeated], hh⟩
  · split at hr
    · exact Option.some.inj hr ▸ hh.newList (by grind [harmless_repeated])
    · cases hr

lemma Harmless.multiplied (hh : h.Harmless) (op : Operator) (inPlace : Bool) (hv : v.Harmless)
    (hx : x.Harmless) : Raised.Or Yields (op.multiplied inPlace h v x) := by
  have hget : ∀ {w : Value} {n : Int}, w.Harmless →
      Yields ((Operator.repeatedSequence? h w n).getD (.none, h)) := by
    intro w n hw
    cases hr : Operator.repeatedSequence? h w n with
    | none => exact ⟨harmless_none, hh⟩
    | some r => exact hh.repeatedSequence hw hr
  unfold Operator.multiplied Operator.notRepeated Operator.mismatch
  grind

lemma Harmless.applyOther (hh : h.Harmless) (op : Operator) (inPlace : Bool) (hv : v.Harmless)
    (hx : x.Harmless) : Raised.Or Yields (op.applyOther inPlace h v x) := by
  unfold Operator.applyOther Operator.mismatch
  split
  · exact hh.joined _ _ hv hx
  · exact hh.multiplied _ _ hv hx
  · split
    · rename_i frozen as _ bs has hbs
      split
      · exact ⟨harmless_ref _, hh.allocate (o := .set frozen _)
          (harmless_onSets (hh.object has) (hh.object hbs) ‹_›)⟩
      · exact Raised.harmless_ofText _ _
    · exact Raised.harmless_ofText _ _

/-- The result of a binary operator is harmless, and comes with a harmless heap. -/
lemma Harmless.apply (hh : h.Harmless) (op : Operator) (inPlace : Bool) (hv : v.Harmless)
    (hx : x.Harmless) : Raised.Or Yields (op.apply inPlace h v x) := by
  have hnumeric : Raised.Or Yields (Operator.apply.numeric op inPlace h v x) := by
    unfold Operator.apply.numeric
    split
    · exact (or_onIntegers _ _ _).map fun v hv => hh.settle hv
    · split
      · split
        · rename_i hr
          exact (or_onFloats hr).map fun v hv => hh.settle hv
        · exact Raised.harmless_ofText _ _
      · exact Raised.harmless_ofText _ _
    · exact hh.applyOther _ _ hv hx
  unfold Operator.apply
  split
  · split
    · exact ⟨harmless_bool _, hh⟩
    · exact hnumeric
  · exact hnumeric

lemma Harmless.negated (hh : h.Harmless) (v : Value) : Raised.Or Yields (h.negated v) := by
  unfold Heap.negated
  split
  · exact ⟨harmless_int _, hh⟩
  · exact hh.settle (harmless_float _)
  · exact Raised.harmless_ofText _ _

lemma or_comparison (c : Comparison) (h : Heap) (v x : Value) :
    Raised.Or (fun _ => True) (c.apply h v x) := by
  unfold Comparison.apply
  grind

end Heap

/-! ## Literals -/

namespace Literal

open Heap

variable {h : Heap}

lemma yields_plantType (hh : h.Harmless) (home qualname : String) {es : List (String × Value)}
    (hes : ∀ e ∈ es, e.2.Harmless) {parent : Option Value} (hp : ∀ v ∈ parent, v.Harmless) :
    (h.plantType home qualname es parent).2.Harmless := by
  unfold Heap.plantType
  have hd : (h.allocate (.sealed "getset_descriptor")).2.Harmless :=
    hh.allocate (o := .sealed _) trivial
  refine hd.allocate (o := .type _) ⟨?_, ?_⟩
  · refine List.foldlRecOn _ _ (motive := Bindings.Harmless) (Bindings.harmless_ofList ?_)
      fun b hb e he => ?_
    · simpa using hes
    · split
      · exact hb
      · exact hb.set (by cases parent <;> grind) _
  · cases parent with
    | none => simp
    | some p => exact List.forall_mem_cons.mpr ⟨hp p rfl, hd.ancestors p⟩

mutual

/-- A literal becomes a harmless value in a harmless heap: no literal names the class of the signal
to stop. -/
lemma yields_plant {h : Heap} (hh : h.Harmless) : ∀ l : Literal, Yields (plant h l)
  | .none | .bool _ | .int _ | .str _ | .bytes _ => by
    rw [plant]
    exact ⟨by simp, hh⟩
  | .float x => by
    rw [plant]
    exact hh.settle (harmless_float x)
  | .complex re im => by
    rw [plant]
    exact hh.settle (harmless_complex re im)
  | .fixed place number => by
    obtain ⟨hv, hh⟩ := yields_plant hh number
    rw [plant]
    exact ⟨harmless_nan_iff.mpr hv.content, hh⟩
  | .tuple items => by
    obtain ⟨hvs, hh⟩ := yields_plantAll hh items
    rw [plant]
    exact ⟨harmless_tuple_iff.mpr hvs, hh⟩
  | .list items => by
    obtain ⟨hvs, hh⟩ := yields_plantAll hh items
    rw [plant]
    exact ⟨harmless_ref _, hh.allocate (o := .list _) (by simpa [Obj.Harmless] using hvs)⟩
  | .selfList items => by
    obtain ⟨hvs, hh⟩ := yields_plantAll hh items
    have hh := hh.allocate (o := .list (plantAll h items).1.toArray)
      (by simpa [Obj.Harmless] using hvs)
    rw [plant]
    exact ⟨harmless_ref _, hh.set (o := .list _) (by grind) _⟩
  | .set frozen items => by
    obtain ⟨hvs, hh⟩ := yields_plantAll hh items
    rw [plant]
    exact ⟨harmless_ref _, hh.allocate (o := .set _ _) (harmless_addMembers hvs)⟩
  | .dict entries => by
    obtain ⟨hvs, hh⟩ := yields_plantEntries hh entries
    rw [plant]
    exact ⟨harmless_ref _, hh.allocate (o := .dict _) (harmless_setEntries hvs)⟩
  | .derived name base => by
    obtain ⟨hv, hh⟩ := yields_plant hh base
    rw [plant]
    exact ⟨harmless_derived_iff.mpr hv, hh⟩
  | .type home qualname attributes parent => by
    obtain ⟨hvs, hh⟩ := yields_plantFields hh attributes
    obtain ⟨hp, hh⟩ := yields_plantParent hh parent
    rw [plant]
    exact ⟨harmless_ref _, yields_plantType hh _ _ hvs hp⟩
  | .object home qualname attributes => by
    obtain ⟨hvs, hh⟩ := yields_plantFields hh attributes
    rw [plant]
    exact ⟨harmless_ref _, (yields_plantType hh _ _ (by simp) (by simp)).allocate
      (o := .object _ _) (Bindings.harmless_ofList hvs)⟩
  | .sealed name => by
    rw [plant]
    exact ⟨harmless_ref _, hh.allocate (o := .sealed _) trivial⟩
  | .module name => by
    rw [plant]
    exact ⟨harmless_ref _, hh.plantModule (by simp) _⟩
  | .callable kind qualname => by
    rw [plant]
    exact ⟨harmless_ref _, hh.allocate (o := .callable _ _) trivial⟩
  | .builtin qualname => by
    rw [plant]
    exact ⟨by simp [stopType], hh⟩
  | .listMethod qualname => by
    have hh := hh.allocate (o := .list #[]) (by simp [Obj.Harmless])
    rw [plant]
    exact ⟨harmless_ref _, hh.allocate (o := .bound _ _) (by simp [Obj.Harmless, stopType])⟩

lemma yields_plantAll {h : Heap} (hh : h.Harmless) : ∀ ls : List Literal,
    (∀ v ∈ (plantAll h ls).1, v.Harmless) ∧ (plantAll h ls).2.Harmless
  | [] => by simpa [plantAll] using hh
  | l :: ls => by
    obtain ⟨hv, hh⟩ := yields_plant hh l
    obtain ⟨hvs, hh⟩ := yields_plantAll hh ls
    rw [plantAll]
    exact ⟨List.forall_mem_cons.mpr ⟨hv, hvs⟩, hh⟩

lemma yields_plantFields {h : Heap} (hh : h.Harmless) : ∀ ls : List (String × Literal),
    (∀ e ∈ (plantFields h ls).1, e.2.Harmless) ∧ (plantFields h ls).2.Harmless
  | [] => by simpa [plantFields] using hh
  | (name, l) :: ls => by
    obtain ⟨hv, hh⟩ := yields_plant hh l
    obtain ⟨hvs, hh⟩ := yields_plantFields hh ls
    rw [plantFields]
    exact ⟨List.forall_mem_cons.mpr ⟨hv, hvs⟩, hh⟩

lemma yields_plantEntries {h : Heap} (hh : h.Harmless) : ∀ ls : List (Literal × Literal),
    (∀ e ∈ (plantEntries h ls).1, e.1.Harmless ∧ e.2.Harmless) ∧ (plantEntries h ls).2.Harmless
  | [] => by simpa [plantEntries] using hh
  | (k, l) :: ls => by
    obtain ⟨hk, hh⟩ := yields_plant hh k
    obtain ⟨hv, hh⟩ := yields_plant hh l
    obtain ⟨hvs, hh⟩ := yields_plantEntries hh ls
    rw [plantEntries]
    exact ⟨List.forall_mem_cons.mpr ⟨⟨hk, hv⟩, hvs⟩, hh⟩

lemma yields_plantParent {h : Heap} (hh : h.Harmless) : ∀ o : Option Literal,
    (∀ v ∈ (plantParent h o).1, v.Harmless) ∧ (plantParent h o).2.Harmless
  | Option.none => by simpa [plantParent] using hh
  | some l => by
    obtain ⟨hv, hh⟩ := yields_plant hh l
    rw [plantParent]
    exact ⟨by simpa using hv, hh⟩

end

end Literal

end StateAtlas
