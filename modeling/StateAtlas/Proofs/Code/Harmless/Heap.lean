import Mathlib.Tactic.Common
import StateAtlas.Code.Attribute
import StateAtlas.Proofs.Data.Bindings

set_option autoImplicit false

/-!
# Values that hide the signal to stop

The class of the signal to stop is private to the search. A value is harmless if that class is
neither the value nor a part of it, and a heap is harmless if all its objects are. In a harmless
heap nothing is an instance of the class: no exception of the program is taken for the signal.

## Main definitions

* `StateAtlas.Value.Harmless` — the class of the signal to stop cannot be got from a value.
* `StateAtlas.Heap.Harmless` — the same of all objects.
* `StateAtlas.Raised.Or` — a result has a property, unless a harmless exception arises instead.

## Main results

* `StateAtlas.Heap.Harmless.isInstance_stop` — no value is an instance of the class of the signal.
* `StateAtlas.Heap.Harmless.linearize` — the ancestors of a new class are harmless.
* `StateAtlas.Heap.Harmless.findAttribute?` — attributes are harmless.
-/

namespace StateAtlas

/-! ## Values -/

namespace Value

/-- The class of the signal to stop is a value or a part of it. -/
inductive Reveals : Value → Prop
  | stop : Reveals stopType
  | item {v : Value} {items : List Value} (hv : v ∈ items) (h : Reveals v) : Reveals (.tuple items)
  | base {type : String} {text : Option String} {v : Value} (h : Reveals v) :
      Reveals (.derived type text v)
  | number {i : Identity} {v : Value} (h : Reveals v) : Reveals (.nan i v)

/-- The class of the signal to stop cannot be got from a value. -/
def Harmless (v : Value) : Prop := ¬v.Reveals

variable {v : Value} {items : List Value}

@[simp, grind .] lemma harmless_none : Value.none.Harmless := nofun

@[simp, grind .] lemma harmless_bool (b : Bool) : (Value.bool b).Harmless := nofun

@[simp, grind .] lemma harmless_int (i : Int) : (Value.int i).Harmless := nofun

@[simp, grind .] lemma harmless_float (x : Float) : (Value.float x).Harmless := nofun

@[simp, grind .] lemma harmless_complex (x y : Float) : (Value.complex x y).Harmless := nofun

@[simp, grind .] lemma harmless_str (s : String) : (Value.str s).Harmless := nofun

@[simp, grind .] lemma harmless_bytes (bs : List UInt8) : (Value.bytes bs).Harmless := nofun

@[simp, grind .] lemma harmless_ref (a : Address) : (Value.ref a).Harmless := nofun

@[simp, grind =] lemma harmless_tuple_iff :
    (Value.tuple items).Harmless ↔ ∀ v ∈ items, v.Harmless := by
  refine ⟨fun h v hv hr => h (.item hv hr), fun h hr => ?_⟩
  cases hr with
  | item hv hr => exact h _ hv hr

@[simp, grind =] lemma harmless_derived_iff {type : String} {text : Option String} :
    (Value.derived type text v).Harmless ↔ v.Harmless := by
  refine ⟨fun h hr => h (.base hr), fun h hr => ?_⟩
  cases hr with
  | base hr => exact h hr

@[simp, grind =] lemma harmless_nan_iff {i : Identity} :
    (Value.nan i v).Harmless ↔ v.Harmless := by
  refine ⟨fun h hr => h (.number hr), fun h hr => ?_⟩
  cases hr with
  | number hr => exact h hr

@[simp, grind =] lemma harmless_builtin_iff {b : Builtin} :
    (Value.builtin b).Harmless ↔ Value.builtin b ≠ stopType := by
  refine ⟨fun h heq => h (heq ▸ .stop), fun h hr => ?_⟩
  generalize hv : Value.builtin b = v at hr h
  cases hr with
  | stop => exact h rfl
  | item | base | number => cases hv

@[simp, grind .] lemma harmless_ofType (name : String) : (ofType name).Harmless := by
  simp [ofType, stopType]

@[simp] lemma not_harmless_stopType : ¬stopType.Harmless := fun h => h .stop

lemma Harmless.content (h : v.Harmless) : v.content.Harmless := by
  induction v using Value.content.induct with
  | case1 _ _ ih => exact ih (harmless_nan_iff.mp h)
  | case2 _ _ _ ih => exact ih (harmless_derived_iff.mp h)
  | case3 v hn hd => rwa [Value.content]; exacts [hn, hd]

/-- Nothing but the class of the signal is the same as it. -/
lemma eq_stopType_of_isSame (h : v.isSame stopType = true) : v = stopType := by
  cases v <;> simp_all [isSame, stopType]

lemma harmless_getD {o : Option Value} (h : ∀ v ∈ o, v.Harmless) : (o.getD .none).Harmless := by
  cases o with
  | none => exact harmless_none
  | some v => exact h v rfl

end Value

namespace Bindings

/-- All values that are bound to names are harmless. -/
def Harmless (b : Bindings Value) : Prop := ∀ name v, b.get? name = some v → v.Harmless

variable {b : Bindings Value} {es : List (String × Value)}

lemma harmless_empty : (empty : Bindings Value).Harmless := by
  intro name v h
  simp [empty, get?, find?] at h

lemma Harmless.set (hb : b.Harmless) {v : Value} (hv : v.Harmless) (name : String) :
    (b.set name v).Harmless := by
  intro k x h
  by_cases hk : k = name
  · rw [hk, get?_set_self] at h
    exact Option.some.inj h ▸ hv
  · rw [get?_set_of_ne hk] at h
    exact hb k x h

lemma Harmless.erase (hb : b.Harmless) (name : String) : (b.erase name).Harmless :=
  fun k v h => hb k v (get?_erase_eq_some_iff.mp h).2

lemma Harmless.setAll (hb : b.Harmless) (hes : ∀ e ∈ es, e.2.Harmless) :
    (b.setAll es).Harmless := by
  intro k v h
  rcases of_get?_setAll h with h | h
  · exact hes _ h
  · exact hb k v h

lemma harmless_ofList (hes : ∀ e ∈ es, e.2.Harmless) : (ofList es).Harmless :=
  harmless_empty.setAll hes

lemma harmless_find? (hes : ∀ e ∈ es, e.2.Harmless) {name : String} {v : Value}
    (hv : find? name es = some v) : v.Harmless := by
  induction es with
  | nil => cases hv
  | cons e es ih =>
    obtain ⟨he, hes⟩ := List.forall_mem_cons.mp hes
    rw [find?] at hv
    split at hv
    · exact Option.some.inj hv ▸ he
    · exact ih hes hv

end Bindings

/-! ## Objects -/

/-- All values that an iterator goes through are harmless. -/
@[grind =]
def Supply.Harmless : Supply → Prop
  | .values rest => ∀ v ∈ rest, v.Harmless
  | .mapped function sources => function.Harmless ∧ ∀ v ∈ sources, v.Harmless
  | .list .. | .integers .. => True

/-- All values that an object holds are harmless. -/
@[grind =]
def Obj.Harmless : Obj → Prop
  | .list items | .set _ items => ∀ v ∈ items, v.Harmless
  | .dict entries => ∀ e ∈ entries, e.1.Harmless ∧ e.2.Harmless
  | .module vs | .body vs | .object _ vs => vs.Harmless
  | .type info => info.attributes.Harmless ∧ ∀ v ∈ info.ancestors, v.Harmless
  | .exception t arguments vs =>
    t.Harmless ∧ (∀ v ∈ arguments, v.Harmless) ∧ vs.Harmless
  | .function info => (∀ v ∈ info.defaults, v.Harmless) ∧ info.attributes.Harmless
  | .bound receiver callee => receiver.Harmless ∧ callee.Harmless
  | .cell content => ∀ v ∈ content, v.Harmless
  | .iterator _ supply => supply.Harmless
  | .sealed _ | .callable .. | .range .. | .generator _ => True

namespace Heap

/-- All objects are harmless. -/
def Harmless (h : Heap) : Prop := ∀ a o, h.get? a = some o → o.Harmless

variable {h : Heap} {a : Address} {o : Obj} {v x : Value} {name : String}

lemma harmless_empty : empty.Harmless := by simp [Harmless, empty, get?]

lemma Harmless.set (hh : h.Harmless) (ho : o.Harmless) (a : Address) : (h.set a o).Harmless := by
  intro b o' h'
  simp only [Heap.set, get?, Array.getElem?_setIfInBounds] at h'
  split at h'
  · split at h'
    · exact Option.some.inj h' ▸ ho
    · cases h'
  · exact hh b o' h'

lemma Harmless.allocate (hh : h.Harmless) (ho : o.Harmless) : (h.allocate o).2.Harmless := by
  intro b o' h'
  simp only [Heap.allocate, get?, Array.getElem?_push] at h'
  split at h'
  · exact Option.some.inj h' ▸ ho
  · exact hh b o' h'

@[grind →]
lemma Harmless.object (hh : h.Harmless) (ho : h.object? v = some o) : o.Harmless := by
  unfold object? at ho
  split at ho
  · exact hh _ _ ho
  · cases ho

lemma Harmless.variables (hh : h.Harmless) (a : Address) : (h.variables a).Harmless := by
  unfold Heap.variables
  split
  · exact hh a _ ‹_›
  · exact hh a _ ‹_›
  · exact Bindings.harmless_empty

lemma Harmless.setVariables (hh : h.Harmless) {vs : Bindings Value} (hvs : vs.Harmless)
    (a : Address) : (h.setVariables a vs).Harmless := by
  unfold Heap.setVariables
  split
  · exact hh.set (o := .module vs) hvs a
  · exact hh.set (o := .body vs) hvs a
  · exact hh

lemma Harmless.newException (hh : h.Harmless) {t : Value} (ht : t.Harmless) {vs : List Value}
    (hvs : ∀ v ∈ vs, v.Harmless) : (h.newException t vs).2.Harmless :=
  hh.allocate (o := .exception t vs .empty) ⟨ht, hvs, Bindings.harmless_empty⟩

lemma Harmless.plantModule (hh : h.Harmless) {l : List (String × Value)}
    (hl : ∀ e ∈ l, e.2.Harmless) (name : String) : (h.plantModule name l).2.Harmless := by
  refine hh.allocate (o := .module _) ((Bindings.harmless_ofList ?_).setAll hl)
  simp

/-! ## Classes -/

lemma harmless_builtinChain (fuel : Nat) (name : String) :
    ∀ v ∈ builtinChain fuel name, v.Harmless := by
  induction fuel generalizing name with
  | zero => simp [builtinChain]
  | succ fuel ih =>
    rw [builtinChain]
    split
    · simpa using ih _
    · simp

lemma harmless_builtinAncestors (module name : String) :
    ∀ v ∈ builtinAncestors module name, v.Harmless := by
  unfold builtinAncestors
  split
  · exact harmless_builtinChain _ _
  · simpa using harmless_builtinChain _ _
  · simpa using harmless_builtinChain _ _
  · simp

/-- The classes above a class are harmless, whatever the class. -/
lemma Harmless.ancestors (hh : h.Harmless) (t : Value) : ∀ v ∈ h.ancestors t, v.Harmless := by
  unfold Heap.ancestors
  split
  · exact harmless_builtinAncestors _ _
  · split
    · rename_i info ho
      exact And.right (hh _ (.type info) ho)
    · simp
  · simp

lemma Harmless.typeOf (hh : h.Harmless) (v : Value) : (h.typeOf v).Harmless := by
  unfold Heap.typeOf
  split
  · simp
  · rename_i t arguments vs ho
    exact And.left (hh.object (o := .exception t arguments vs) ho)
  · simp

/-- **No value is an instance of the class of the signal to stop.** -/
lemma Harmless.isInstance_stop (hh : h.Harmless) (v : Value) :
    h.isInstance v .stopType = false := by
  rw [Bool.eq_false_iff]
  intro hi
  simp only [isInstance, isSubtype, Bool.or_eq_true, List.any_eq_true] at hi
  rcases hi with hi | ⟨t, ht, hi⟩
  · exact Value.not_harmless_stopType (Value.eq_stopType_of_isSame hi ▸ hh.typeOf v)
  · exact Value.not_harmless_stopType (Value.eq_stopType_of_isSame hi ▸ hh.ancestors _ t ht)

/-- The ancestors of several parents are merged from harmless lists.

**Proof sketch.** Induction on the length of the result: each of its classes is the first one of a
list, and the lists that are left are shorter. -/
lemma harmless_mergeAncestors {fuel : Nat} {lists : List (List Value)} {vs : List Value}
    (hl : ∀ l ∈ lists, ∀ v ∈ l, v.Harmless) (h : mergeAncestors fuel lists = some vs) :
    ∀ v ∈ vs, v.Harmless := by
  induction fuel generalizing lists vs with
  | zero => simp_all [mergeAncestors]
  | succ fuel ih =>
    rw [mergeAncestors] at h
    split at h
    · simp_all
    · split at h
      · cases h
      · rename_i c hc
        obtain ⟨ws, hws, rfl⟩ := Option.map_eq_some_iff.mp h
        have hcs : c.Harmless := by
          obtain ⟨l, hl', hsome⟩ := List.exists_of_findSome?_eq_some hc
          cases l with
          | nil => cases hsome
          | cons x xs =>
            simp only [Option.ite_none_left_eq_some, Option.some.injEq] at hsome
            exact hsome.2 ▸ hl _ hl' _ List.mem_cons_self
        refine List.forall_mem_cons.mpr ⟨hcs, ih (fun l hlm => ?_) hws⟩
        grind

lemma Harmless.linearize (hh : h.Harmless) {parents vs : List Value}
    (hp : ∀ v ∈ parents, v.Harmless) (hl : linearize h parents = some vs) :
    ∀ v ∈ vs, v.Harmless := by
  refine harmless_mergeAncestors (fun l hlm => ?_) hl
  rcases List.mem_append.mp hlm with hlm | hlm
  · obtain ⟨p, hpm, rfl⟩ := List.mem_map.mp hlm
    exact List.forall_mem_cons.mpr ⟨hp p hpm, hh.ancestors p⟩
  · exact List.mem_singleton.mp hlm ▸ hp

end Heap

/-! ## Results -/

/-- An exception that is about to arise is harmless. -/
@[grind =]
def Raised.Harmless (r : Raised) : Prop := r.type.Harmless ∧ ∀ v ∈ r.arguments, v.Harmless

/-- A result has a property, unless a harmless exception arises instead. -/
@[grind =]
def Raised.Or {α : Type} (Q : α → Prop) : Except Raised α → Prop
  | .ok a => Q a
  | .error r => r.Harmless

namespace Raised

variable {α β : Type} {Q : α → Prop} {e : Except Raised α}

@[simp, grind .] lemma harmless_ofText (type text : String) :
    (Raised.ofText type text).Harmless := by
  simp [Raised.Harmless, Raised.ofText]

lemma Or.of_ok {a : α} (h : Raised.Or Q e) (he : e = .ok a) : Q a := by
  subst he
  exact h

lemma Or.of_error {r : Raised} (h : Raised.Or Q e) (he : e = .error r) : r.Harmless := by
  subst he
  exact h

lemma Or.map {R : β → Prop} {f : α → β} (h : Raised.Or Q e) (hf : ∀ a, Q a → R (f a)) :
    Raised.Or R (e.map f) := by
  cases e with
  | ok a => exact hf a h
  | error r => exact h

end Raised

namespace Heap

/-- A result comes with a new heap, and both are harmless. -/
def Yields (r : Value × Heap) : Prop := r.1.Harmless ∧ r.2.Harmless

/-! ## Attributes -/

variable {h : Heap} {v x : Value} {name : String}

lemma Harmless.ownAttribute? (hh : h.Harmless) (hx : h.ownAttribute? v name = some x) :
    x.Harmless := by
  unfold Heap.ownAttribute? at hx
  grind [Bindings.Harmless]

lemma Harmless.updateOwn? (hh : h.Harmless) {f : Bindings Value → Bindings Value}
    (hf : ∀ b, b.Harmless → (f b).Harmless) {h' : Heap} (he : h.updateOwn? v f = some h') :
    h'.Harmless := by
  unfold Heap.updateOwn? mapOwn? at he
  grind [Harmless.set, Heap.Harmless]

lemma Harmless.ownTypeAttribute? (hh : h.Harmless) {t : Value}
    (hx : h.ownTypeAttribute? name t = some x) : x.Harmless := by
  unfold Heap.ownTypeAttribute? at hx
  grind [Bindings.Harmless]

lemma Harmless.typeAttribute? (hh : h.Harmless) {t : Value}
    (hx : h.typeAttribute? t name = some x) : x.Harmless := by
  obtain ⟨_, -, hx⟩ := List.exists_of_findSome?_eq_some hx
  exact hh.ownTypeAttribute? hx

lemma harmless_builtinMethod? {type : String} (hx : builtinMethod? type name = some x) :
    x.Harmless := by
  unfold builtinMethod? at hx
  grind [Value.stopType]

lemma Harmless.classAttribute? (hh : h.Harmless) {t : Value}
    (hx : h.classAttribute? t name = some x) : x.Harmless := by
  unfold Heap.classAttribute? typeFact? at hx
  grind [Harmless.typeAttribute?, harmless_builtinMethod?]

/-- An attribute is harmless, whether it is a value or a function that is still to be bound. -/
lemma Harmless.findAttribute? (hh : h.Harmless)
    (hx : h.findAttribute? v name = some (.inl x) ∨ h.findAttribute? v name = some (.inr x)) :
    x.Harmless := by
  unfold Heap.findAttribute? at hx
  grind [Harmless.typeAttribute?, harmless_builtinMethod?, Harmless.classAttribute?,
    Harmless.ownAttribute?, Harmless.typeOf, Option.map_eq_some_iff]

lemma Harmless.loadAttribute (hh : h.Harmless) (hv : v.Harmless) :
    Raised.Or Yields (h.loadAttribute v name) := by
  unfold Heap.loadAttribute
  split
  · exact ⟨hh.findAttribute? (.inl ‹_›), hh⟩
  · exact ⟨Value.harmless_ref _,
      hh.allocate (o := .bound v _) ⟨hv, hh.findAttribute? (.inr ‹_›)⟩⟩
  · split
    · exact ⟨Value.harmless_ref _, hh.allocate (o := .sealed _) trivial⟩
    · exact Raised.harmless_ofText _ _

lemma Harmless.loadMethod (hh : h.Harmless) (hv : v.Harmless) (name : String) :
    Raised.Or (fun r => r.1.Harmless ∧ ∀ x ∈ r.2, x.Harmless) (h.loadMethod v name) := by
  unfold Heap.loadMethod noAttribute
  grind [Harmless.findAttribute?]

lemma Harmless.storeAttribute (hh : h.Harmless) (hx : x.Harmless) :
    Raised.Or Heap.Harmless (h.storeAttribute v name x) := by
  unfold Heap.storeAttribute setOwn? noAttribute immutableType
  grind [Harmless.updateOwn?, Bindings.Harmless.set]

lemma Harmless.deleteAttribute (hh : h.Harmless) :
    Raised.Or Heap.Harmless (h.deleteAttribute v name) := by
  unfold Heap.deleteAttribute eraseOwn? noAttribute immutableType
  grind [Harmless.updateOwn?, Bindings.Harmless.erase]

end Heap

end StateAtlas
