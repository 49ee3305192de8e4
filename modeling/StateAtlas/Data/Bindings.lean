set_option autoImplicit false

/-!
# Bindings

A finite map from names to values that remembers the order in which names were first bound.
Binding a name again changes its value and keeps its place.

## Main definitions

* `StateAtlas.Bindings` — the map, as a list of pairs with distinct names.
* `Bindings.get?`, `Bindings.set`, `Bindings.erase` — look up, bind and unbind a name.
* `Bindings.merge` — bind all names of one map in another.

## Main results

* `Bindings.get?_set_self`, `Bindings.get?_set_of_ne` — what binding a name does to look-ups.
* `Bindings.keys_set` — what binding a name does to the order of names.
-/

namespace StateAtlas

namespace Bindings

variable {α : Type}

/-- The value first found under a name in a list of pairs. -/
def find? (key : String) : List (String × α) → Option α
  | [] => none
  | (k, v) :: rest => if k = key then some v else find? key rest

/-- Binds a name in a list of pairs, in place if it is there and at the end if it is not. -/
def put (key : String) (value : α) : List (String × α) → List (String × α)
  | [] => [(key, value)]
  | (k, v) :: rest => if k = key then (k, value) :: rest else (k, v) :: put key value rest

theorem find?_put_self (key : String) (value : α) (es : List (String × α)) :
    find? key (put key value es) = some value := by
  induction es with
  | nil => simp [put, find?]
  | cons e es ih =>
    obtain ⟨k, v⟩ := e
    by_cases h : k = key
    · simp [put, find?, h]
    · simp [put, find?, h, ih]

theorem find?_put_of_ne {key other : String} (h : other ≠ key) (value : α)
    (es : List (String × α)) : find? other (put key value es) = find? other es := by
  induction es with
  | nil => simp [put, find?, Ne.symm h]
  | cons e es ih =>
    obtain ⟨k, v⟩ := e
    by_cases hk : k = key
    · subst hk; simp [put, find?, Ne.symm h]
    · by_cases ho : k = other
      · subst ho; simp [put, find?, h]
      · simp [put, find?, hk, ho, ih]

theorem map_fst_put (key : String) (value : α) (es : List (String × α)) :
    (put key value es).map Prod.fst =
      if key ∈ es.map Prod.fst then es.map Prod.fst else es.map Prod.fst ++ [key] := by
  induction es with
  | nil => simp [put]
  | cons e es ih =>
    obtain ⟨k, v⟩ := e
    by_cases h : k = key
    · simp [put, h]
    · by_cases hm : key ∈ es.map Prod.fst
      · simp only [put, h, ↓reduceIte, List.map_cons, ih, if_pos hm]
        simp [hm]
      · simp only [put, h, ↓reduceIte, List.map_cons, ih, if_neg hm]
        simp [Ne.symm h, hm]

theorem nodup_put (key : String) (value : α) {es : List (String × α)}
    (h : (es.map Prod.fst).Nodup) : ((put key value es).map Prod.fst).Nodup := by
  rw [map_fst_put]
  split
  · exact h
  · rename_i hk
    rw [List.nodup_append]
    refine ⟨h, by simp, ?_⟩
    intro a ha b hb
    rw [List.mem_singleton] at hb
    subst hb
    exact fun hab => hk (hab ▸ ha)

end Bindings

/-- A finite map from names to values in the order in which names were first bound. -/
structure Bindings (α : Type) where
  /-- The bound names with their values. -/
  entries : List (String × α)
  /-- No name is bound twice. -/
  nodup : (entries.map Prod.fst).Nodup

namespace Bindings

variable {α : Type}

/-- The map without names. -/
def empty : Bindings α := ⟨[], by simp⟩

instance : Inhabited (Bindings α) := ⟨empty⟩

/-- The value bound to a name. -/
def get? (b : Bindings α) (key : String) : Option α := find? key b.entries

/-- Whether a name is bound. -/
def contains (b : Bindings α) (key : String) : Bool := (b.get? key).isSome

/-- Binds a name. -/
def set (b : Bindings α) (key : String) (value : α) : Bindings α :=
  ⟨put key value b.entries, nodup_put key value b.nodup⟩

/-- Unbinds a name. -/
def erase (b : Bindings α) (key : String) : Bindings α :=
  ⟨b.entries.filter fun e => e.1 ≠ key, b.nodup.sublist (List.filter_sublist.map Prod.fst)⟩

/-- The names in order of first binding. -/
def keys (b : Bindings α) : List String := b.entries.map Prod.fst

/-- Binds the names of a list of pairs in a map, one after another. -/
def setAll (b : Bindings α) (entries : List (String × α)) : Bindings α :=
  entries.foldl (fun b e => b.set e.1 e.2) b

/-- Binds every name of `new` in `b`, in order. -/
def merge (b new : Bindings α) : Bindings α := b.setAll new.entries

/-- Binds the names of a list of pairs one after another. -/
def ofList (entries : List (String × α)) : Bindings α := empty.setAll entries

@[simp] theorem get?_set_self (b : Bindings α) (key : String) (value : α) :
    (b.set key value).get? key = some value :=
  find?_put_self key value b.entries

theorem get?_set_of_ne {key other : String} (h : other ≠ key) (b : Bindings α) (value : α) :
    (b.set key value).get? other = b.get? other :=
  find?_put_of_ne h value b.entries

/-- Binding a known name keeps the order of names; a new name comes last. -/
theorem keys_set (b : Bindings α) (key : String) (value : α) :
    (b.set key value).keys = if key ∈ b.keys then b.keys else b.keys ++ [key] :=
  map_fst_put key value b.entries

end Bindings

end StateAtlas
