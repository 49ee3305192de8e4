import Mathlib.Data.List.Sort
import Mathlib.Data.String.Basic
import StateAtlas.Proofs.Label.Writer
import StateAtlas.Provider.Scripted

set_option autoImplicit false

/-!
# The order in which labels are listed

A provider answers with a set of labels, and nothing depends on how the set is listed: its labels
are gathered in the order of their names and descriptions, which tells any two labels apart. What a
writer becomes, what it asks of the search and what it writes is a function of the sets that its
providers answer with, one call after the other.

## Main definitions

* `StateAtlas.Opinion.Alike` — two answers with the same labels.
* `StateAtlas.Tally.fold` — what comes of the answers to some calls.
* `StateAtlas.Writer.answers` — the answers to the calls that a writer makes at a delivery.
* `StateAtlas.Writer.Agrees` — two writers that have gathered and recorded the same.

## Main results

* `StateAtlas.Label.arrange_congr` — the same labels are arranged in the same way.
* `StateAtlas.Writer.enumeration_invisible` — writers whose calls are answered alike stay the same.
-/

namespace StateAtlas

variable {P P' : Type}

/-! ## The order of labels -/

namespace Label

variable {a b c : Label}

lemma le_iff : le a b = true ↔
    a.name < b.name ∨ a.name = b.name ∧ (a.description < b.description ∨
      a.description = b.description) := by
  simp [le]

/-- Labels are ordered by name and then by description. -/
lemma le_trans (hab : le a b = true) (hbc : le b c = true) : le a c = true := by
  rw [le_iff] at *
  rcases hab with hab | ⟨hab, hab'⟩
  · rcases hbc with hbc | ⟨hbc, -⟩
    · exact .inl (lt_trans hab hbc)
    · exact .inl (hbc ▸ hab)
  · rcases hbc with hbc | ⟨hbc, hbc'⟩
    · exact .inl (hab ▸ hbc)
    · refine .inr ⟨hab.trans hbc, ?_⟩
      rcases hab' with hab' | hab'
      · rcases hbc' with hbc' | hbc'
        · exact .inl (lt_trans hab' hbc')
        · exact .inl (hbc' ▸ hab')
      · rwa [hab']

lemma le_total (a b : Label) : le a b = true ∨ le b a = true := by
  simp only [le_iff]
  rcases lt_trichotomy a.name b.name with h | h | h
  · exact .inl (.inl h)
  · rcases lt_trichotomy a.description b.description with h' | h' | h'
    · exact .inl (.inr ⟨h, .inl h'⟩)
    · exact .inl (.inr ⟨h, .inr h'⟩)
    · exact .inr (.inr ⟨h.symm, .inl h'⟩)
  · exact .inr (.inl h)

/-- Labels that are not told apart by the order are the same. -/
lemma le_antisymm (hab : le a b = true) (hba : le b a = true) : a = b := by
  rw [le_iff] at hab hba
  rcases hab with hab | ⟨hname, hab⟩
  · rcases hba with hba | ⟨hba, -⟩
    · exact absurd hab (lt_asymm hba)
    · exact absurd hab (hba ▸ lt_irrefl _)
  · rcases hba with hba | ⟨-, hba⟩
    · exact absurd hba (hname ▸ lt_irrefl _)
    · have hdescription : a.description = b.description := by
        rcases hab with hab | hab
        · rcases hba with hba | hba
          · exact absurd hab (lt_asymm hba)
          · exact hba.symm
        · exact hab
      cases a
      cases b
      simp_all

/-- In order, and each label once. -/
abbrev Arranged (labels : List Label) : Prop :=
  labels.Pairwise fun a b => le a b = true ∧ a ≠ b

/-- Without immediate repetitions, labels in order are there once. -/
lemma arranged_dropRepeats {labels : List Label} (h : labels.Pairwise fun a b => le a b = true) :
    Arranged (dropRepeats labels) := by
  induction labels with
  | nil => exact List.Pairwise.nil
  | cons a rest ih =>
    obtain ⟨ha, hrest⟩ := List.pairwise_cons.mp h
    have ih := ih hrest
    have hle : ∀ c ∈ dropRepeats rest, le a c = true := fun c hc => ha c (mem_dropRepeats.mp hc)
    rw [dropRepeats]
    split
    · exact List.pairwise_singleton _ _
    · rename_i b bs hb
      rw [hb] at ih hle
      split
      · exact ih
      · rename_i hab
        refine List.pairwise_cons.mpr ⟨fun c hc => ⟨hle c hc, ?_⟩, ih⟩
        rcases List.mem_cons.mp hc with rfl | hc
        · exact hab
        · -- the label would stand before and after the next one
          rintro rfl
          have hba := ((List.pairwise_cons.mp ih).1 a hc).1
          exact hab (le_antisymm (hle b List.mem_cons_self) hba)

lemma arranged_arrange (labels : List Label) : Arranged (arrange labels) := by
  have hsorted : (labels.mergeSort le).Pairwise fun a b => le a b = true :=
    @List.pairwise_mergeSort Label le (fun _ _ _ => le_trans)
      (fun a b => (Bool.or_eq_true _ _).mpr (le_total a b)) labels
  exact arranged_dropRepeats hsorted

/-- The same labels are arranged in the same way, however they are listed.

**Proof sketch.** Two lists in the same order that have the same members, each once, are the same. -/
theorem arrange_congr {labels labels' : List Label} (h : ∀ l, l ∈ labels ↔ l ∈ labels') :
    arrange labels = arrange labels' := by
  have nodup : ∀ labels, (arrange labels).Nodup := fun labels =>
    (arranged_arrange labels).imp fun hab => hab.2
  have hperm : (arrange labels).Perm (arrange labels') := by
    refine (List.perm_ext_iff_of_nodup (nodup _) (nodup _)).mpr fun l => ?_
    rw [mem_arrange, mem_arrange, h]
  exact hperm.eq_of_pairwise (fun _ _ _ _ hab hba => le_antisymm hab.1 hba.1)
    (arranged_arrange _) (arranged_arrange _)

end Label

/-! ## Answers to calls -/

/-- Two answers with the same labels: both are a set of labels, the same one, or both are none, or
both are the same failure. -/
def Opinion.Alike : Opinion → Opinion → Prop
  | .ok (some labels), .ok (some labels') => ∀ l, l ∈ labels ↔ l ∈ labels'
  | .ok none, .ok none => True
  | .error f, .error f' => f = f'
  | _, _ => False

instance (o o' : Opinion) : Decidable (Opinion.Alike o o') :=
  match o, o' with
  | .ok (some labels), .ok (some labels') =>
    decidable_of_iff ((∀ l ∈ labels, l ∈ labels') ∧ ∀ l ∈ labels', l ∈ labels)
      ⟨fun h l => ⟨h.1 l, h.2 l⟩, fun h => ⟨fun l => (h l).mp, fun l => (h l).mpr⟩⟩
  | .ok none, .ok none => isTrue trivial
  | .error f, .error f' => inferInstanceAs (Decidable (f = f'))
  | .ok (some _), .ok none | .ok none, .ok (some _) | .ok (some _), .error _ | .ok none, .error _
  | .error _, .ok _ => isFalse not_false

/-- The calls that are made: none after a failure. -/
def Opinion.made : List Opinion → List Opinion
  | [] => []
  | .error f :: _ => [.error f]
  | .ok answer :: rest => .ok answer :: made rest

namespace Tally

/-- What comes of the answers to some calls: their labels are gathered, up to the first failure. The
flag says whether any of them is a set of labels. -/
def fold : List Opinion → Tally → Tally × Except Fault Bool
  | [], t => (t, .ok false)
  | .error f :: _, t => (t, .error f)
  | .ok answer :: rest, t =>
    let (t, wanted) := fold rest (t.addAll (answer.getD []))
    (t, wanted.map (answer.isSome || ·))

/-- Answers with the same labels come to the same. -/
lemma fold_congr {os os' : List Opinion} (h : List.Forall₂ Opinion.Alike os os') :
    ∀ t, fold os t = fold os' t := by
  induction h with
  | nil => exact fun _ => rfl
  | @cons o o' os os' ho _ ih =>
    intro t
    match o, o', ho with
    | .ok (some labels), .ok (some labels'), ho =>
      simp only [fold, Option.getD_some, addAll, Label.arrange_congr ho, ih]
      rfl
    | .ok none, .ok none, _ =>
      simp only [fold, ih]
    | .error f, .error f', ho =>
      obtain rfl : f = f' := ho
      rfl

/-- What is not asked has no part in what comes of the answers. -/
lemma fold_made (os : List Opinion) : ∀ t, fold (Opinion.made os) t = fold os t := by
  induction os with
  | nil => exact fun _ => rfl
  | cons o os ih =>
    intro t
    cases o with
    | error f => rfl
    | ok answer => simp only [Opinion.made, fold, ih]

/-- Answers are folded one after the other. -/
lemma fold_append (os os' : List Opinion) : ∀ t, fold (os ++ os') t =
    match fold os t with
    | (t, .error f) => (t, .error f)
    | (t, .ok wanted) => ((fold os' t).1, (fold os' t).2.map (wanted || ·)) := by
  induction os with
  | nil =>
    intro t
    have hmap : (fold os' t).2.map (false || ·) = (fold os' t).2 := by
      cases (fold os' t).2 <;> simp [Except.map]
    simp only [List.nil_append, fold, hmap]
  | cons o os ih =>
    intro t
    cases o with
    | error f => rfl
    | ok answer =>
      simp only [List.cons_append, fold, ih]
      cases fold os (t.addAll (answer.getD [])) with
      | mk u r =>
        cases r with
        | error f => rfl
        | ok wanted =>
          cases h : (fold os' u).2 <;> simp [Except.map, h, Bool.or_assoc]

section Providers

variable [LabelProvider P]

/-- The answers of providers that are asked for the labels of a new state. -/
def stateAnswers (view : View) (ps : List P) : List Opinion :=
  ps.map fun p => (LabelProvider.stateLabels view p).2

/-- The answers of providers that take note of an instruction; they have no labels. -/
def noteAnswers (s : Scene) (i : Instruction) (ps : List P) : List Opinion :=
  (ps.filter LabelProvider.handlesTransitions).map fun p =>
    (LabelProvider.beforeInstruction s i p).2.map fun _ => none

/-- The answers of a provider that is asked about a step. -/
def stepAnswer (s : Scene) (executed : Instruction) (next : Option Instruction) (p : P) :
    List Opinion :=
  (LabelProvider.breakAfter s executed p).2 ::
    next.toList.map fun i =>
      (LabelProvider.breakBefore s i (LabelProvider.breakAfter s executed p).1).2

/-- The answers of providers that are asked about a step. -/
def stepAnswers (s : Scene) (executed : Instruction) (next : Option Instruction) (ps : List P) :
    List Opinion :=
  (ps.filter LabelProvider.handlesTransitions).flatMap (stepAnswer s executed next)

/-- The failure of some calls. -/
def failure? : Except Fault Bool → Option Fault
  | .error f => some f
  | .ok _ => none

lemma failure?_map (r : Except Fault Bool) (g : Bool → Bool) : failure? (r.map g) = failure? r := by
  cases r <;> rfl

/-- What is gathered for a new state comes of the answers. -/
lemma askStates_snd (view : View) (ps : List P) : ∀ t : Tally, (askStates view ps t).2 =
    ((fold (stateAnswers view ps) t).1, failure? (fold (stateAnswers view ps) t).2) := by
  induction ps with
  | nil => exact fun t => rfl
  | cons p ps ih =>
    intro t
    rw [askStates, stateAnswers, List.map_cons, ← stateAnswers]
    cases LabelProvider.stateLabels view p with
    | mk q o =>
      cases o with
      | error f => rfl
      | ok answer => simp only [ih, fold, failure?_map]

/-- Whether providers take note of an instruction comes of the answers. -/
lemma prepare_snd (s : Scene) (i : Instruction) (ps : List P) : ∀ t : Tally,
    (prepare s i ps).2 = failure? (fold (noteAnswers s i ps) t).2 := by
  induction ps with
  | nil => exact fun t => rfl
  | cons p ps ih =>
    intro t
    rw [prepare]
    by_cases hp : LabelProvider.handlesTransitions p = true
    · rw [if_pos hp, noteAnswers, List.filter_cons_of_pos hp, List.map_cons, ← noteAnswers]
      cases LabelProvider.beforeInstruction s i p with
      | mk q o =>
        cases o with
        | error f => rfl
        | ok u =>
          simp only [ih (t.addAll []), Except.map, fold, Option.getD_none]
          exact (failure?_map _ _).symm
    · rw [if_neg hp, noteAnswers, List.filter_cons_of_neg hp]
      exact ih t

/-- What is gathered of a step from one provider comes of its answers. -/
lemma askBreak_snd (s : Scene) (executed : Instruction) (next : Option Instruction) (p : P)
    (t : Tally) : (askBreak s executed next p t).2 = fold (stepAnswer s executed next p) t := by
  rw [askBreak, stepAnswer]
  cases LabelProvider.breakAfter s executed p with
  | mk q o =>
    cases o with
    | error f => rfl
    | ok after =>
      cases next with
      | none => simp [fold, Except.map]
      | some i =>
        simp only [Option.toList_some, List.map_cons, List.map_nil]
        cases LabelProvider.breakBefore s i q with
        | mk q' o' => cases o' <;> simp [fold, Except.map]

/-- What is gathered of a step, and whether a boundary is wanted, comes of the answers. -/
lemma askBreaks_snd (s : Scene) (executed : Instruction) (next : Option Instruction) (ps : List P) :
    ∀ t : Tally, (askBreaks s executed next ps t).2 = fold (stepAnswers s executed next ps) t := by
  induction ps with
  | nil => exact fun t => rfl
  | cons p ps ih =>
    intro t
    rw [askBreaks]
    by_cases hp : LabelProvider.handlesTransitions p = true
    · rw [if_pos hp, stepAnswers, List.filter_cons_of_pos hp, List.flatMap_cons, ← stepAnswers,
        fold_append, ← askBreak_snd]
      cases askBreak s executed next p t with
      | mk q r =>
        obtain ⟨u, answer⟩ := r
        cases answer with
        | error f => rfl
        | ok wanted => simp only [← ih]
    · rw [if_neg hp, stepAnswers, List.filter_cons_of_neg hp]
      exact ih t

end Providers

end Tally

/-! ## Writers -/

namespace Writer

/-- Two writers, with any providers, have gathered and recorded the same. -/
structure Agrees (w : Writer P) (w' : Writer P') : Prop where
  tally : w.tally = w'.tally
  journal : w.journal = w'.journal
  outputDir : w.outputDir = w'.outputDir

/-- What is recorded in the same way is the same. -/
lemma Agrees.record {w : Writer P} {w' : Writer P'} (h : w.Agrees w') (g : Journal → Journal) :
    Agrees { w with journal := g w.journal } { w' with journal := g w'.journal } :=
  ⟨h.tally, congrArg g h.journal, h.outputDir⟩

/-- Writers that agree write the same, and are left with the same. -/
lemma Agrees.save {w : Writer P} {w' : Writer P'} (h : w.Agrees w') (e : Surroundings)
    (name : String) :
    (w.writeJournal e name).1.Agrees (w'.writeJournal e name).1 ∧
      (w.writeJournal e name).2 = (w'.writeJournal e name).2 ∧
      w.writeLegend e name = w'.writeLegend e name := by
  obtain ⟨ps, tally, journal, dir⟩ := w
  obtain ⟨ps', _, _, _⟩ := w'
  obtain ⟨rfl, rfl, rfl⟩ := h
  refine ⟨?_, ?_, rfl⟩ <;> cases journal <;> first | exact ⟨rfl, rfl, rfl⟩ | rfl

variable [LabelProvider P] [LabelProvider P']

/-- The answers to the calls that a writer makes at a delivery, in their order. -/
def answers (w : Writer P) (d : Delivery) : List Opinion :=
  Opinion.made <|
    match d.notice with
    | .started => Tally.stateAnswers d.view w.providers
    | .advanced => if d.view.isNew then Tally.stateAnswers d.view w.providers else []
    | .executing i => Tally.noteAnswers d.view.scene i w.providers
    | .executed i next => Tally.stepAnswers d.view.scene i next w.providers
    | _ => []

variable {w : Writer P} {w' : Writer P'}

/-- What comes of the answers that are alike, asked or not, is the same. -/
lemma fold_made_congr {os os' : List Opinion}
    (h : List.Forall₂ Opinion.Alike (Opinion.made os) (Opinion.made os')) (t : Tally) :
    Tally.fold os t = Tally.fold os' t := by
  rw [← Tally.fold_made os, ← Tally.fold_made os', Tally.fold_congr h]

/-- What a writer records for a state comes of the answers. -/
lemma labelState_fold (w : Writer P) (view : View) (id : Int) : w.labelState view id =
    let r := Tally.fold (Tally.stateAnswers view w.providers) w.tally
    let ps := (w.tally.askStates view w.providers).1
    match Tally.failure? r.2 with
    | some f => ({ w with providers := ps, tally := r.1 }, some f)
    | none => ({ w with
        providers := ps
        tally := r.1.clear
        journal := w.journal.label ⟨id, r.1.current⟩ }, none) := by
  have hask := Tally.askStates_snd view w.providers w.tally
  rw [Writer.labelState]
  cases h : w.tally.askStates view w.providers with
  | mk ps r =>
    obtain ⟨t, f⟩ := r
    rw [h] at hask
    obtain ⟨ht, hf⟩ := Prod.mk.inj hask
    dsimp only
    rw [← ht, ← hf]
    cases f <;> rfl

/-- The reaction to a step, after the providers have been asked about it. -/
def stepReaction : Except Fault Bool → Reaction
  | .error f => .failing f
  | .ok wanted =>
    { Reaction.none with breakReason := if wanted then some "Instruction executed" else none }

/-- What a writer gathers of a step, and how it reacts, comes of the answers. -/
lemma hear_executed (w : Writer P) (e : Surroundings) (view : View) (i : Instruction)
    (next : Option Instruction) : w.hear e view (.executed i next) =
      let r := Tally.fold (Tally.stepAnswers view.scene i next w.providers) w.tally.clear
      ({ w with
          providers := (w.tally.clear.askBreaks view.scene i next w.providers).1
          tally := r.1 }, e, stepReaction r.2) := by
  rw [Writer.hear, ← Tally.askBreaks_snd]
  cases w.tally.clear.askBreaks view.scene i next w.providers with
  | mk ps r =>
    obtain ⟨t, answer⟩ := r
    cases answer <;> rfl

/-- Writers that agree record the same for a state if its labels are said alike. -/
lemma Agrees.labelState (h : w.Agrees w') (view : View) (id : Int)
    (ho : List.Forall₂ Opinion.Alike (Opinion.made (Tally.stateAnswers view w.providers))
      (Opinion.made (Tally.stateAnswers view w'.providers))) :
    (w.labelState view id).1.Agrees (w'.labelState view id).1 ∧
      (w.labelState view id).2 = (w'.labelState view id).2 := by
  rw [labelState_fold, labelState_fold, h.tally, fold_made_congr ho]
  dsimp only
  split
  · exact ⟨⟨rfl, h.journal, h.outputDir⟩, rfl⟩
  · exact ⟨⟨rfl, congrArg (Journal.label · _) h.journal, h.outputDir⟩, rfl⟩

/-- Writers that agree react to a notice in the same way, and agree after it, if the calls they make
are answered alike.

**Proof sketch.** One case for each notice; in each of them what comes of the calls is a function of
the answers, and the rest is a function of what the writers agree on. -/
theorem Agrees.hear (h : w.Agrees w') (e : Surroundings) (view : View) (n : Notice)
    (ho : List.Forall₂ Opinion.Alike (w.answers ⟨view, n⟩) (w'.answers ⟨view, n⟩)) :
    (w.hear e view n).1.Agrees (w'.hear e view n).1 ∧
      (w.hear e view n).2 = (w'.hear e view n).2 := by
  cases n with
  | started =>
    have hclear : Agrees { w with tally := w.tally.clear } { w' with tally := w'.tally.clear } :=
      ⟨congrArg Tally.clear h.tally, h.journal, h.outputDir⟩
    obtain ⟨hl, hf⟩ := hclear.labelState view (-1) ho
    simp only [Writer.hear]
    exact ⟨hl, by rw [hf]⟩
  | advanced =>
    by_cases hnew : view.isNew = true
    · simp only [answers, hnew, if_true] at ho
      obtain ⟨hl, hf⟩ := h.labelState view view.stateId ho
      rw [hear_advanced hnew, hear_advanced hnew]
      simp only [← hf, and_true]
      split
      · exact hl.record (Journal.advance · view.stateId)
      · exact hl
    · simp only [Writer.hear, hnew]
      exact ⟨h.record (Journal.advance · view.stateId), rfl⟩
  | backtracked | restored =>
    exact ⟨h.record (Journal.move · view.stateId), rfl⟩
  | executing i =>
    have hf : (Tally.prepare view.scene i w.providers).2 =
        (Tally.prepare view.scene i w'.providers).2 := by
      rw [Tally.prepare_snd _ _ _ .empty, Tally.prepare_snd _ _ _ .empty, fold_made_congr ho]
    simp only [Writer.hear]
    exact ⟨⟨h.tally, h.journal, h.outputDir⟩, by rw [hf]⟩
  | executed i next =>
    rw [hear_executed, hear_executed, h.tally, fold_made_congr ho]
    exact ⟨⟨rfl, h.journal, h.outputDir⟩, rfl⟩
  | constraintHit =>
    obtain ⟨hw, hs, -⟩ := h.save e (view.name ++ "_" ++ view.constraint.getD "None")
    exact ⟨hw, hs⟩
  | finished =>
    obtain ⟨hw, hs, -⟩ := h.save e view.name
    simp only [Writer.hear, hs]
    split
    · exact ⟨hw, rfl⟩
    · refine ⟨hw, ?_⟩
      rw [(hw.save _ view.name).2.2]

/-- Writers of the same kind that hear the same notices and whose calls are answered alike, one after
the other, have the same registry, with the same indices, have recorded the same label sets, and
write the same texts. They react to every notice in the same way: they ask for the same boundaries
and leave the same files and reports. How a set of labels is listed makes no difference.

**Proof sketch.** Induction on the log; the writers agree at every moment, `Agrees.hear`, since the
labels of a set are gathered in the order in which they are arranged, `Label.arrange_congr`. -/
theorem enumeration_invisible {ps : List P} {ps' : List P'} {j : Journal} {dir : Path} {log : Log}
    (hlog : ∀ d earlier, d :: earlier <:+ log → List.Forall₂ Opinion.Alike
      (((new ps j dir).heard earlier).answers d) (((new ps' j dir).heard earlier).answers d)) :
    ((new ps j dir).heard log).tally.registry = ((new ps' j dir).heard log).tally.registry ∧
      ((new ps j dir).heard log).journal = ((new ps' j dir).heard log).journal ∧
      ((new ps j dir).heard log).render = ((new ps' j dir).heard log).render ∧
      ((new ps j dir).heard log).legend = ((new ps' j dir).heard log).legend ∧
      ∀ d earlier, d :: earlier <:+ log → ∀ e,
        (((new ps j dir).heard earlier).hear e d.view d.notice).2 =
          (((new ps' j dir).heard earlier).hear e d.view d.notice).2 := by
  have hagrees : ∀ earlier, earlier <:+ log →
      ((new ps j dir).heard earlier).Agrees ((new ps' j dir).heard earlier) := by
    intro earlier hs
    induction earlier with
    | nil => exact ⟨rfl, rfl, rfl⟩
    | cons d earlier ih =>
      exact ((ih ((List.suffix_cons d earlier).trans hs)).hear .empty d.view d.notice
        (hlog d earlier hs)).1
  have h := hagrees log (List.suffix_refl _)
  refine ⟨congrArg Tally.registry h.tally, h.journal, ?_, ?_, fun d earlier hs e => ?_⟩
  · rw [render, render, h.journal, h.tally]
  · rw [legend, legend, h.tally]
  · exact ((hagrees earlier ((List.suffix_cons d earlier).trans hs)).hear e d.view d.notice
      (hlog d earlier hs)).2

/-! ## Labels that are listed in two ways -/

/-- The labels of a state and of a step, listed in some way. -/
def listing (arranged : List Label → List Label) : List AnyProvider :=
  [.fixed [(0, some (arranged [⟨"b", "second"⟩, ⟨"a", "first"⟩]))],
    .scripted { (default : ScriptedProvider) with
      after := [("NOP", .labels (some (arranged [⟨"c", "third"⟩, ⟨"a", "again"⟩])))] }]

/-- A step to a new state. -/
def listingLog : Log :=
  let view : View := ⟨"coins", 0, true, false, 1, none, none, .empty⟩
  [⟨view, .advanced⟩, ⟨view, .executed { (default : Instruction) with opname := "NOP" } none⟩]

/-- The labels of the state and of the step may be listed from the last one to the first. -/
theorem enumeration_invisible_reverse :
    listing id ≠ listing List.reverse ∧
    ((new (listing id) (.ofFormat .text) ⟨"", []⟩).heard listingLog).tally.registry =
      ((new (listing List.reverse) (.ofFormat .text) ⟨"", []⟩).heard listingLog).tally.registry ∧
    ((new (listing id) (.ofFormat .text) ⟨"", []⟩).heard listingLog).render =
      ((new (listing List.reverse) (.ofFormat .text) ⟨"", []⟩).heard listingLog).render := by
  have hlog : ∀ d earlier, d :: earlier <:+ listingLog → List.Forall₂ Opinion.Alike
      (((new (listing id) (.ofFormat .text) ⟨"", []⟩).heard earlier).answers d)
      (((new (listing List.reverse) (.ofFormat .text) ⟨"", []⟩).heard earlier).answers d) := by
    intro d earlier hs
    rcases List.suffix_cons_iff.mp hs with heq | hs
    · obtain ⟨rfl, rfl⟩ := List.cons.inj heq
      decide +kernel
    · obtain ⟨rfl, rfl⟩ := List.cons.inj ((List.suffix_cons_iff.mp hs).resolve_right (by simp))
      decide +kernel
  obtain ⟨hregistry, -, hrender, -⟩ := enumeration_invisible hlog
  exact ⟨by simp [listing], hregistry, hrender⟩

end Writer

end StateAtlas
