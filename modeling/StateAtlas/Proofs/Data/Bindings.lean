import Mathlib.Data.List.Induction
import Mathlib.Data.List.Nodup
import Mathlib.Tactic.Common
import StateAtlas.Data.Bindings

set_option autoImplicit false

/-!
# Looking up names

What is found under a name, in a list of pairs and in a map, after names have been bound, unbound or
left out, and in which order the names come.

## Main definitions

* `StateAtlas.Bindings.lastValue?` — the value that stands last under a name in a list of pairs.

## Main results

* `StateAtlas.Bindings.find?_eq_some_iff` — in a list without repeated names, a name is found with
  its value.
* `StateAtlas.Bindings.perm_iff_find?_eq` — such lists are the same map up to their order.
* `StateAtlas.Bindings.get?_erase_eq_some_iff`, `StateAtlas.Bindings.get?_setAll_of_forall` — what is
  found after names have been unbound and bound.
* `StateAtlas.Bindings.keys_setAll`, `StateAtlas.Bindings.get?_setAll` — the order of the names that
  have been bound one after another, and what is found under them.
* `StateAtlas.Bindings.merge_ofList` — maps can be merged name by name.
-/

namespace StateAtlas

/-! ### The order of first occurrence -/

section FirstOccurrence

variable {α : Type} [DecidableEq α]

/-- A last item is added unless it has occurred before. -/
lemma eraseDups_concat (as : List α) (a : α) :
    (as ++ [a]).eraseDups = if a ∈ as then as.eraseDups else as.eraseDups ++ [a] := by
  rw [List.eraseDups_append, List.cons_removeAll, List.nil_removeAll]
  by_cases h : a ∈ as <;> simp [h, List.eraseDups_cons]

lemma eraseDups_of_nodup {as : List α} (h : as.Nodup) : as.eraseDups = as := by
  induction as with
  | nil => rfl
  | cons a as ih =>
    obtain ⟨ha, has⟩ := List.nodup_cons.mp h
    have hkept : as.filter (fun b => !b == a) = as :=
      List.filter_eq_self.mpr fun b hb => by simpa using fun hba : b = a => ha (hba ▸ hb)
    rw [List.eraseDups_cons, hkept, ih has]

/-- It makes no difference whether what is appended has repetitions.

**Proof sketch.** Induction on what is appended, from its last item backwards. -/
lemma eraseDups_append_eraseDups (as bs : List α) :
    (as ++ bs.eraseDups).eraseDups = (as ++ bs).eraseDups := by
  induction bs using List.reverseRecOn with
  | nil => rfl
  | append_singleton bs b ih =>
    rw [eraseDups_concat]
    split
    · rename_i hb
      rw [ih, ← List.append_assoc, eraseDups_concat, if_pos (List.mem_append_right as hb)]
    · rw [← List.append_assoc, ← List.append_assoc, eraseDups_concat, eraseDups_concat, ih]
      simp only [List.mem_append, List.mem_eraseDups]

end FirstOccurrence

namespace Bindings

variable {α β : Type}

/-! ### In lists of pairs -/

section Pairs

variable {es es' : List (String × α)} {name : String}

/-- In a list without repeated names, a name is found with its value. -/
lemma find?_eq_some_iff (h : (es.map Prod.fst).Nodup) {v : α} :
    find? name es = some v ↔ (name, v) ∈ es := by
  induction es with
  | nil => simp [find?]
  | cons e es ih =>
    obtain ⟨k, x⟩ := e
    rw [List.map_cons, List.nodup_cons] at h
    rw [find?, List.mem_cons, Prod.mk.injEq]
    split
    · rename_i hk
      subst hk
      refine ⟨fun hx => .inl ⟨rfl, (Option.some.inj hx).symm⟩, ?_⟩
      rintro (⟨-, rfl⟩ | hmem)
      · rfl
      · exact absurd (List.mem_map_of_mem hmem) h.1
    · rename_i hk
      rw [ih h.2]
      exact ⟨.inr, fun hor => hor.resolve_left fun hx => hk hx.1.symm⟩

/-- Lists without repeated names are the same up to order exactly if they are the same map. -/
lemma perm_iff_find?_eq (h : (es.map Prod.fst).Nodup) (h' : (es'.map Prod.fst).Nodup) :
    es.Perm es' ↔ ∀ name, find? name es = find? name es' := by
  rw [List.perm_ext_iff_of_nodup h.of_map h'.of_map, Prod.forall]
  refine forall_congr' fun name => ?_
  simp only [← find?_eq_some_iff h, ← find?_eq_some_iff h']
  exact Option.ext_iff.symm

/-- Nothing is found under a name that is not there. -/
lemma find?_eq_none (h : name ∉ es.map Prod.fst) : find? name es = none := by
  induction es with
  | nil => rfl
  | cons e es ih =>
    rw [List.map_cons, List.mem_cons, not_or] at h
    rw [find?, if_neg (Ne.symm h.1), ih h.2]

/-- Lists with the same names in the same order are the same if they are the same map and have no
repeated names. -/
lemma eq_of_find?_eq (h : (es.map Prod.fst).Nodup) (hfst : es.map Prod.fst = es'.map Prod.fst)
    (hfind : ∀ name, find? name es = find? name es') : es = es' := by
  induction es generalizing es' with
  | nil => exact (List.map_eq_nil_iff.mp hfst.symm).symm
  | cons e es ih =>
    obtain ⟨e', es', rfl, he, hes⟩ := List.map_eq_cons_iff.mp hfst.symm
    obtain ⟨hfresh, h⟩ := List.nodup_cons.mp h
    have hvalue : e.2 = e'.2 := by simpa [find?, he] using hfind e.1
    have hrest : ∀ name, find? name es = find? name es' := by
      intro name
      by_cases hname : e.1 = name
      · subst hname
        rw [find?_eq_none hfresh, find?_eq_none (hes ▸ hfresh)]
      · simpa [find?, he, hname] using hfind name
    rw [Prod.ext he.symm hvalue, ih h hes.symm hrest]

/-- What is found after the values have been changed. -/
lemma find?_map (f : α → β) (name : String) (es : List (String × α)) :
    find? name (es.map fun e => (e.1, f e.2)) = (find? name es).map f := by
  induction es with
  | nil => rfl
  | cons e es ih =>
    simp only [List.map_cons, find?, ih]
    split <;> rfl

/-- What is found after some names have been left out. -/
lemma find?_filter (p : String → Bool) (name : String) (es : List (String × α)) :
    find? name (es.filter fun e => p e.1) = if p name then find? name es else none := by
  induction es with
  | nil => simp [find?]
  | cons e es ih =>
    rw [List.filter_cons]
    split
    · rename_i hp
      simp only [find?, ih]
      split
      · rename_i hk
        subst hk
        simp [hp]
      · rfl
    · rename_i hp
      rw [ih, find?]
      split
      · rename_i hname
        rw [if_neg fun hk : e.1 = name => hp (hk ▸ hname)]
      · rfl

end Pairs

/-! ### In maps -/

variable {m : Bindings α} {k : String} {v : α} {es : List (String × α)}

/-- What is left after a name has been unbound was there, under another name. -/
lemma get?_erase_eq_some_iff {name : String} :
    (m.erase name).get? k = some v ↔ k ≠ name ∧ m.get? k = some v := by
  rw [get?, erase, find?_filter fun key => decide (key ≠ name)]
  by_cases hk : k = name <;> simp [hk, get?]

/-- Every other name is found as before. -/
lemma get?_erase_of_ne {name : String} (h : k ≠ name) : (m.erase name).get? k = m.get? k :=
  Option.ext fun _ => get?_erase_eq_some_iff.trans (and_iff_right h)

/-- What is found under a name was there, or has been bound. -/
lemma of_get?_setAll (h : (m.setAll es).get? k = some v) :
    (k, v) ∈ es ∨ m.get? k = some v := by
  induction es generalizing m with
  | nil => exact .inr h
  | cons e es ih =>
    rcases ih h with hes | hm
    · exact .inl (List.mem_cons_of_mem e hes)
    · by_cases hk : k = e.1
      · subst hk
        obtain rfl : e.2 = v := by simpa using hm
        exact .inl List.mem_cons_self
      · exact .inr (get?_set_of_ne hk m e.2 ▸ hm)

/-- A map of some names binds nothing else. -/
lemma of_get?_ofList (h : (ofList es).get? k = some v) : (k, v) ∈ es :=
  (of_get?_setAll h).resolve_right (by simp [empty, get?, find?])

/-- What is found under a name if everything bound to it is the same. -/
lemma get?_setAll_of_forall : ∀ {m : Bindings α}, (∀ e ∈ es, e.1 = k → e.2 = v) →
    (m.get? k = some v ∨ k ∈ es.map Prod.fst) → (m.setAll es).get? k = some v := by
  induction es with
  | nil => exact fun _ h => h.resolve_right (by simp)
  | cons e es ih =>
    intro m hsame hk
    obtain ⟨he, hes⟩ := List.forall_mem_cons.mp hsame
    refine ih hes ?_
    by_cases heq : k = e.1
    · rw [heq, get?_set_self, he heq.symm]
      exact .inl rfl
    · rw [get?_set_of_ne heq]
      exact hk.imp_right fun h => (List.mem_cons.mp h).resolve_left heq

/-! ### Maps of names bound one after another -/

/-- The value that stands last under a name in a list of pairs. -/
def lastValue? (name : String) (es : List (String × α)) : Option α :=
  (es.filter fun e => e.1 = name).getLast?.map Prod.snd

lemma lastValue?_concat (name : String) (es : List (String × α)) (e : String × α) :
    lastValue? name (es ++ [e]) = if e.1 = name then some e.2 else lastValue? name es := by
  by_cases h : e.1 = name <;> simp [lastValue?, h]

/-- In a list without repeated names, the last value under a name is the only one. -/
lemma lastValue?_of_nodup {es : List (String × α)} (h : (es.map Prod.fst).Nodup) {name : String} :
    lastValue? name es = find? name es := by
  induction es with
  | nil => rfl
  | cons e es ih =>
    obtain ⟨hfresh, h⟩ := List.nodup_cons.mp h
    rw [find?, ← ih h, lastValue?, lastValue?, List.filter_cons]
    by_cases hname : e.1 = name
    · subst hname
      have hrest : (es.filter fun e' => e'.1 = e.1) = [] := by
        refine List.filter_eq_nil_iff.mpr fun e' he' heq => hfresh ?_
        exact of_decide_eq_true heq ▸ List.mem_map_of_mem he'
      simp [hrest]
    · simp [hname]

lemma setAll_concat (m : Bindings α) (es : List (String × α)) (e : String × α) :
    m.setAll (es ++ [e]) = (m.setAll es).set e.1 e.2 := by
  rw [setAll, List.foldl_concat]
  rfl

/-- The names of a map and those that are bound in it come in the order of first occurrence. -/
lemma keys_setAll (m : Bindings α) (es : List (String × α)) :
    (m.setAll es).keys = (m.keys ++ es.map Prod.fst).eraseDups := by
  induction es using List.reverseRecOn with
  | nil =>
    rw [List.map_nil, List.append_nil]
    exact (eraseDups_of_nodup m.nodup).symm
  | append_singleton es e ih =>
    rw [setAll_concat, keys_set, ih, List.map_append, ← List.append_assoc, List.map_singleton,
      eraseDups_concat]
    simp only [List.mem_eraseDups]

/-- What is found under a name is what has been bound to it last, or what was there. -/
lemma get?_setAll (m : Bindings α) (es : List (String × α)) (name : String) :
    (m.setAll es).get? name = (lastValue? name es).or (m.get? name) := by
  induction es using List.reverseRecOn with
  | nil => rfl
  | append_singleton es e ih =>
    rw [setAll_concat, lastValue?_concat]
    split
    · rename_i h
      rw [← h, get?_set_self, Option.some_or]
    · rename_i h
      rw [get?_set_of_ne (Ne.symm h), ih]

/-- The names of a list are bound in the order of first occurrence. -/
lemma keys_ofList (es : List (String × α)) : (ofList es).keys = (es.map Prod.fst).eraseDups := by
  rw [ofList, keys_setAll]
  rfl

lemma get?_ofList (es : List (String × α)) (name : String) :
    (ofList es).get? name = lastValue? name es := by
  rw [ofList, get?_setAll]
  exact Option.or_none

/-- A map is given by the order of its names and by what is found under them. -/
lemma ext_keys {m m' : Bindings α} (hkeys : m.keys = m'.keys)
    (hget : ∀ name, m.get? name = m'.get? name) : m = m' := by
  obtain ⟨es, hes⟩ := m
  obtain ⟨es', hes'⟩ := m'
  obtain rfl : es = es' := eq_of_find?_eq hes hkeys hget
  rfl

/-- Binding the names of a map anew gives the map. -/
lemma ofList_entries (m : Bindings α) : ofList m.entries = m := by
  refine ext_keys ?_ fun name => ?_
  · rw [keys_ofList]
    exact eraseDups_of_nodup m.nodup
  · rw [get?_ofList, lastValue?_of_nodup m.nodup, get?]

/-- Merging the names of a list is binding them one after another. -/
lemma merge_ofList (m : Bindings α) (es : List (String × α)) :
    m.merge (ofList es) = m.setAll es := by
  refine ext_keys ?_ fun name => ?_
  · have hkeys : (ofList es).entries.map Prod.fst = (es.map Prod.fst).eraseDups := keys_ofList es
    rw [merge, keys_setAll, keys_setAll, hkeys, eraseDups_append_eraseDups]
  · have hlast : lastValue? name (ofList es).entries = lastValue? name es := by
      rw [lastValue?_of_nodup (ofList es).nodup, ← get?_ofList, get?]
    rw [merge, get?_setAll, get?_setAll, hlast]

end Bindings

end StateAtlas
