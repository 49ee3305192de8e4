import Mathlib.Data.List.Nodup
import Mathlib.Tactic.Common
import StateAtlas.Label.Tally

set_option autoImplicit false

/-!
# What a tally gathers

A registry never forgets a label, and a tally gathers the labels its providers answer with: these,
and no others. As long as no provider fails, the providers of a list do not see one another, so that
each answers as if it were alone.

## Main definitions

* `StateAtlas.LabelProvider.names` — what a provider says of a new state.
* `StateAtlas.LabelProvider.wants` — what a provider says of a step.
* `StateAtlas.Tally.Gathers` — a tally has gathered some labels, and no others.

## Main results

* `StateAtlas.Tally.gathers_askStates`, `StateAtlas.Tally.gathers_askBreaks` — what providers say is
  gathered.
-/

namespace StateAtlas

/-! ## The registry -/

namespace Registry

/-- The index of a label is its place. -/
lemma indexOf?_eq_some {r : Registry} {l : Label} {i : Nat} :
    r.indexOf? l = some i ↔ r.labels[i]? = some l :=
  r.agree l i

/-- No label is listed twice. -/
lemma nodup (r : Registry) : r.labels.Nodup := by
  rw [List.Nodup, List.pairwise_iff_getElem]
  intro i j hi hj hij heq
  have hindex : r.indexOf? r.labels[j] = some i :=
    indexOf?_eq_some.mpr (heq ▸ List.getElem?_eq_getElem hi)
  rw [indexOf?_eq_some.mpr (List.getElem?_eq_getElem hj), Option.some.injEq] at hindex
  omega

/-- A registry that grows keeps its indices. -/
lemma indexOf?_of_grows {r r' : Registry} (h : r.labels <+: r'.labels) {l : Label} {i : Nat}
    (hi : r.indexOf? l = some i) : r'.indexOf? l = some i := by
  rw [indexOf?_eq_some] at hi ⊢
  obtain ⟨hlt, hl⟩ := List.getElem?_eq_some_iff.mp hi
  obtain ⟨later, hlater⟩ := h
  rw [← hlater, List.getElem?_append_left hlt, List.getElem?_eq_getElem hlt, hl]

/-- Interning a label gives it the index it has then, and forgets nothing. -/
lemma intern_spec (r : Registry) (l : Label) :
    (r.intern l).2.indexOf? l = some (r.intern l).1 ∧ r.labels <+: (r.intern l).2.labels := by
  rw [intern]
  split
  · rename_i i h
    exact ⟨h, List.prefix_refl _⟩
  · exact ⟨indexOf?_eq_some.mpr (by simp), List.prefix_append _ _⟩

end Registry

/-! ## Sets of labels -/

namespace Label

/-- Immediate repetitions are dropped, and nothing else. -/
lemma mem_dropRepeats {l : Label} {labels : List Label} : l ∈ dropRepeats labels ↔ l ∈ labels := by
  induction labels with
  | nil => rfl
  | cons a rest ih =>
    rw [dropRepeats, List.mem_cons, ← ih]
    split
    · rename_i h
      simp [h]
    · rename_i b bs h
      rw [h]
      split
      · rename_i hab
        simp [hab]
      · simp

/-- Arranging the labels of a set keeps them. -/
lemma mem_arrange {l : Label} {labels : List Label} : l ∈ arrange labels ↔ l ∈ labels := by
  rw [arrange, mem_dropRepeats, List.mem_mergeSort]

end Label

/-- An index that is added to some indices is among them. -/
lemma mem_insertIndex {i j : Nat} {js : List Nat} : i ∈ insertIndex j js ↔ i = j ∨ i ∈ js := by
  induction js with
  | nil => simp [insertIndex]
  | cons k ks ih =>
    rw [insertIndex]
    split
    · simp
    · split
      · rename_i h
        simp [h]
      · rw [List.mem_cons, ih, List.mem_cons]
        tauto

namespace Tally

/-- From one tally to another some labels have been gathered, and no others; nothing is forgotten. -/
structure Gathers (t t' : Tally) (labels : List Label) : Prop where
  grows : t.registry.labels <+: t'.registry.labels
  indexed : ∀ l ∈ labels, ∃ i, t'.registry.indexOf? l = some i
  mem_iff : ∀ i, i ∈ t'.current ↔ i ∈ t.current ∨ ∃ l ∈ labels, t'.registry.indexOf? l = some i

namespace Gathers

variable {t t' t'' : Tally} {labels labels' : List Label}

lemma refl (t : Tally) : t.Gathers t [] :=
  ⟨List.prefix_refl _, by simp, by simp⟩

/-- What is gathered in two steps is gathered. -/
lemma trans (h : t.Gathers t' labels) (h' : t'.Gathers t'' labels') :
    t.Gathers t'' (labels ++ labels') := by
  refine ⟨h.grows.trans h'.grows, fun l hl => ?_, fun i => ?_⟩
  · rcases List.mem_append.mp hl with hl | hl
    · obtain ⟨i, hi⟩ := h.indexed l hl
      exact ⟨i, Registry.indexOf?_of_grows h'.grows hi⟩
    · exact h'.indexed l hl
  · -- an index of the first step is the index of the same label after the second one
    have carry : (∃ l ∈ labels, t'.registry.indexOf? l = some i) ↔
        ∃ l ∈ labels, t''.registry.indexOf? l = some i := by
      constructor
      · rintro ⟨l, hl, hi⟩
        exact ⟨l, hl, Registry.indexOf?_of_grows h'.grows hi⟩
      · rintro ⟨l, hl, hi⟩
        obtain ⟨j, hj⟩ := h.indexed l hl
        obtain rfl : i = j :=
          Option.some.inj (hi.symm.trans (Registry.indexOf?_of_grows h'.grows hj))
        exact ⟨l, hl, hj⟩
    rw [h'.mem_iff, h.mem_iff, carry]
    simp only [List.mem_append, or_and_right, exists_or, or_assoc]

/-- A label is gathered. -/
lemma add (t : Tally) (l : Label) : t.Gathers (t.add l) [l] := by
  obtain ⟨hi, hgrows⟩ := t.registry.intern_spec l
  refine ⟨hgrows, ?_, fun i => ?_⟩
  · rintro l' hl'
    obtain rfl := List.mem_singleton.mp hl'
    exact ⟨_, hi⟩
  · rw [Tally.add, mem_insertIndex, or_comm]
    simp only [List.mem_singleton, exists_eq_left, hi, Option.some.injEq]
    rw [eq_comm]

/-- The labels of a set are gathered. -/
lemma addAll (t : Tally) (labels : List Label) : t.Gathers (t.addAll labels) labels := by
  have fold : ∀ (ls : List Label) (t : Tally), t.Gathers (ls.foldl Tally.add t) ls := by
    intro ls
    induction ls with
    | nil => exact refl
    | cons l ls ih => exact fun t => (add t l).trans (ih _)
  obtain ⟨hgrows, hindexed, hmem⟩ := fold (Label.arrange labels) t
  exact ⟨hgrows, fun l hl => hindexed l (Label.mem_arrange.mpr hl), fun i => by
    rw [Tally.addAll, hmem]
    simp only [Label.mem_arrange]⟩

end Gathers

end Tally

/-! ## What providers say -/

/-- The labels of an answer; a failure has none. -/
def Opinion.labels : Opinion → List Label
  | .ok answer => answer.getD []
  | .error _ => []

namespace LabelProvider

variable {P : Type} [LabelProvider P]

/-- What a provider says of a new state. -/
def names (view : View) (p : P) : List Label := Opinion.labels (stateLabels view p).2

/-- What a provider says of a step: of the instruction that ran, and of the next one. -/
def wants (s : Scene) (executed : Instruction) (next : Option Instruction) (p : P) : List Label :=
  if handlesTransitions p then
    Opinion.labels (breakAfter s executed p).2 ++
      match next with
      | none => []
      | some i => Opinion.labels (breakBefore s i (breakAfter s executed p).1).2
  else []

/-- A provider after it has taken note of an instruction. -/
def prepared (s : Scene) (i : Instruction) (p : P) : P :=
  if handlesTransitions p then (beforeInstruction s i p).1 else p

/-- A provider after it has been asked about a step. -/
def stepped (s : Scene) (executed : Instruction) (next : Option Instruction) (p : P) : P :=
  if handlesTransitions p then
    match next with
    | none => (breakAfter s executed p).1
    | some i => (breakBefore s i (breakAfter s executed p).1).1
  else p

end LabelProvider

namespace Tally

variable {P : Type} [LabelProvider P] {view : View} {s : Scene} {executed : Instruction}
  {next : Option Instruction}

open LabelProvider

/-- Asking providers for the labels of a state forgets nothing, even if one of them fails. -/
lemma askStates_grows (view : View) (ps : List P) : ∀ t : Tally,
    t.registry.labels <+: (askStates view ps t).2.1.registry.labels := by
  induction ps with
  | nil => intro t; exact List.prefix_refl _
  | cons p ps ih =>
    intro t
    rw [askStates]
    split
    · exact List.prefix_refl _
    · exact (Gathers.addAll t _).grows.trans (ih _)

/-- The labels that providers say of a state are gathered. -/
theorem gathers_askStates {ps : List P} : ∀ {t t' : Tally} {ps' : List P},
    askStates view ps t = (ps', t', none) →
      ps' = ps.map (fun p => (stateLabels view p).1) ∧
        t.Gathers t' (ps.flatMap (names view)) := by
  induction ps with
  | nil =>
    intro t t' ps' h
    simp only [askStates, Prod.mk.injEq] at h
    obtain ⟨rfl, rfl, -⟩ := h
    exact ⟨rfl, .refl t⟩
  | cons p ps ih =>
    intro t t' ps' h
    rw [askStates] at h
    split at h
    · simp at h
    · rename_i q answer hp
      cases hrest : askStates view ps (t.addAll (answer.getD [])) with
      | mk qs r =>
        obtain ⟨u, f⟩ := r
        rw [hrest] at h
        simp only [Prod.mk.injEq] at h
        obtain ⟨rfl, rfl, rfl⟩ := h
        obtain ⟨rfl, hg⟩ := ih hrest
        refine ⟨by simp [hp], ?_⟩
        rw [List.flatMap_cons, show names view p = answer.getD [] by simp [names, hp, Opinion.labels]]
        exact (Gathers.addAll t _).trans hg

/-- Asking a provider about a step forgets nothing, even if it fails. -/
lemma askBreak_grows (s : Scene) (executed : Instruction) (next : Option Instruction) (p : P)
    (t : Tally) : t.registry.labels <+: (askBreak s executed next p t).2.1.registry.labels := by
  rw [askBreak]
  split
  · exact List.prefix_refl _
  · cases next with
    | none => exact (Gathers.addAll t _).grows
    | some i =>
      simp only
      split
      · exact (Gathers.addAll t _).grows
      · exact (Gathers.addAll t _).grows.trans (Gathers.addAll _ _).grows

/-- A provider that has been asked about a step without failing has been asked about the instruction
that ran, and then about the next one, if there is one. -/
lemma askBreak_cases {p p' : P} {t t' : Tally} {wanted : Bool}
    (h : askBreak s executed next p t = (p', t', .ok wanted)) :
    ∃ q after, breakAfter s executed p = (q, .ok after) ∧
      ((next = none ∧ p' = q ∧ t' = t.addAll (after.getD []) ∧ wanted = after.isSome) ∨
        ∃ i before, next = some i ∧ breakBefore s i q = (p', .ok before) ∧
          t' = (t.addAll (after.getD [])).addAll (before.getD []) ∧
          wanted = (after.isSome || before.isSome)) := by
  rw [askBreak] at h
  split at h
  · simp at h
  · rename_i q after hafter
    refine ⟨q, after, hafter, ?_⟩
    cases next with
    | none =>
      simp only [Prod.mk.injEq, Except.ok.injEq] at h
      obtain ⟨rfl, rfl, rfl⟩ := h
      exact .inl ⟨rfl, rfl, rfl, rfl⟩
    | some i =>
      simp only at h
      split at h
      · simp at h
      · rename_i q' before hbefore
        simp only [Prod.mk.injEq, Except.ok.injEq] at h
        obtain ⟨rfl, rfl, rfl⟩ := h
        exact .inr ⟨i, before, rfl, hbefore, rfl, rfl⟩

/-- The labels that a provider says of a step are gathered. -/
lemma gathers_askBreak {p p' : P} {t t' : Tally} {wanted : Bool}
    (hh : handlesTransitions p = true)
    (h : askBreak s executed next p t = (p', t', .ok wanted)) :
    p' = stepped s executed next p ∧ t.Gathers t' (wants s executed next p) := by
  obtain ⟨q, after, hafter, ⟨rfl, rfl, rfl, -⟩ | ⟨i, before, rfl, hbefore, rfl, -⟩⟩ :=
    askBreak_cases h
  · refine ⟨by simp [stepped, hh, hafter], ?_⟩
    rw [show wants s executed none p = after.getD [] by simp [wants, hh, hafter, Opinion.labels]]
    exact .addAll t _
  · refine ⟨by simp [stepped, hh, hafter, hbefore], ?_⟩
    rw [show wants s executed (some i) p = after.getD [] ++ before.getD [] by
      simp [wants, hh, hafter, hbefore, Opinion.labels]]
    exact (Gathers.addAll t _).trans (.addAll _ _)

/-- Asking providers about a step forgets nothing, even if one of them fails. -/
lemma askBreaks_grows (s : Scene) (executed : Instruction) (next : Option Instruction)
    (ps : List P) : ∀ t : Tally,
      t.registry.labels <+: (askBreaks s executed next ps t).2.1.registry.labels := by
  induction ps with
  | nil => intro t; exact List.prefix_refl _
  | cons p ps ih =>
    intro t
    rw [askBreaks]
    split
    · have hp := askBreak_grows s executed next p t
      split
      · rename_i hask
        rwa [hask] at hp
      · rename_i hask
        rw [hask] at hp
        exact hp.trans (ih _)
    · exact ih t

/-- Providers that have been asked about a step without failing have been asked one after the other,
but for those that do not watch instructions. -/
lemma askBreaks_cases {p : P} {ps ps' : List P} {t t' : Tally} {wanted : Bool}
    (h : askBreaks s executed next (p :: ps) t = (ps', t', .ok wanted)) :
    (handlesTransitions p = true ∧ ∃ q u b qs b', askBreak s executed next p t = (q, u, .ok b) ∧
        askBreaks s executed next ps u = (qs, t', .ok b') ∧ ps' = q :: qs ∧
        wanted = (b || b')) ∨
      (handlesTransitions p = false ∧ ∃ qs,
        askBreaks s executed next ps t = (qs, t', .ok wanted) ∧ ps' = p :: qs) := by
  rw [askBreaks] at h
  split at h
  · rename_i hh
    split at h
    · simp at h
    · rename_i q u b hask
      cases hrest : askBreaks s executed next ps u with
      | mk qs r =>
        obtain ⟨v, answer⟩ := r
        rw [hrest] at h
        cases answer with
        | error f => simp [Except.map] at h
        | ok b' =>
          simp only [Except.map, Prod.mk.injEq, Except.ok.injEq] at h
          obtain ⟨rfl, rfl, rfl⟩ := h
          exact .inl ⟨hh, q, u, b, qs, b', hask, hrest, rfl, rfl⟩
  · rename_i hh
    cases hrest : askBreaks s executed next ps t with
    | mk qs r =>
      obtain ⟨v, answer⟩ := r
      rw [hrest] at h
      simp only [Prod.mk.injEq] at h
      obtain ⟨rfl, rfl, rfl⟩ := h
      exact .inr ⟨Bool.eq_false_iff.mpr hh, qs, rfl, rfl⟩

/-- The labels that providers say of a step are gathered. -/
theorem gathers_askBreaks {ps : List P} : ∀ {t t' : Tally} {ps' : List P} {wanted : Bool},
    askBreaks s executed next ps t = (ps', t', .ok wanted) →
      ps' = ps.map (stepped s executed next) ∧
        t.Gathers t' (ps.flatMap (wants s executed next)) := by
  induction ps with
  | nil =>
    intro t t' ps' wanted h
    simp only [askBreaks, Prod.mk.injEq] at h
    obtain ⟨rfl, rfl, -⟩ := h
    exact ⟨rfl, .refl t⟩
  | cons p ps ih =>
    intro t t' ps' wanted h
    rcases askBreaks_cases h with
      ⟨hh, q, u, b, qs, b', hask, hrest, rfl, -⟩ | ⟨hh, qs, hrest, rfl⟩
    · obtain ⟨rfl, hg⟩ := gathers_askBreak hh hask
      obtain ⟨rfl, hg'⟩ := ih hrest
      exact ⟨rfl, hg.trans hg'⟩
    · obtain ⟨rfl, hg'⟩ := ih hrest
      refine ⟨by simp [stepped, hh], ?_⟩
      rwa [List.flatMap_cons, show wants s executed next p = [] by simp [wants, hh]]

/-- Providers that take note of an instruction do so one by one. -/
lemma prepare_eq {i : Instruction} {ps : List P} (h : (prepare s i ps).2 = none) :
    (prepare s i ps).1 = ps.map (prepared s i) := by
  induction ps with
  | nil => rfl
  | cons p ps ih =>
    revert h
    rw [prepare]
    split
    · rename_i hh
      split
      · exact fun h => absurd h (by simp)
      · rename_i q hp
        intro h
        simp [prepared, hh, hp, ih h]
    · rename_i hh
      intro h
      simp [prepared, hh, ih h]

end Tally

end StateAtlas
