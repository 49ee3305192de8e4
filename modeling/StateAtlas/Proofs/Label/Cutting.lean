import StateAtlas.Proofs.Code.Request
import StateAtlas.Proofs.Label.Gathering
import StateAtlas.Proofs.Search.Sequel

set_option autoImplicit false

/-!
# Where transitions are cut

A transition ends between two instructions where a provider has an opinion, and nowhere else,
unless no fingerprint of the state there can be made. Every provider that watches instructions is
asked about every step, whatever the others have answered; one set of labels is enough for a
boundary, and the empty set will do.

## Main definitions

* `StateAtlas.LabelProvider.Cuts` — a provider has an opinion about a step.
* `StateAtlas.Tally.inquiries` — the questions about a step, in the order in which they are put.
* `StateAtlas.Tally.Poll` — what has come of the questions so far.
* `StateAtlas.Writer.Consults` — what becomes of a writer comes of the questions.

## Main results

* `StateAtlas.Tally.foldlM_inquiries` — asking the providers is putting the questions one by one.
* `StateAtlas.Listeners.heard_after` — the reactions of label writers in every run.
* `StateAtlas.Exploration.cut_where_wanted` — where the transitions of a run are cut.
-/

namespace StateAtlas

variable {σ κ P : Type} [LabelProvider P]

/-- Whether a notice is the conclusion of the last instruction of a program. -/
def Notice.isLast : Notice → Bool
  | .executed _ none => true
  | _ => false

lemma Notice.exists_of_isLast {n : Notice} (h : n.isLast = true) : ∃ i, n = .executed i none := by
  unfold isLast at h
  split at h
  · exact ⟨_, rfl⟩
  · simp at h

/-- A provider that watches instructions and gives the same answer to every question. -/
structure ConstantProvider where
  answer : Option (List Label)

instance : LabelProvider ConstantProvider where
  handlesTransitions _ := true
  stateLabels _ p := (p, .ok p.answer)
  beforeInstruction _ _ p := (p, .ok ())
  breakAfter _ _ p := (p, .ok p.answer)
  breakBefore _ _ p := (p, .ok p.answer)

/-! ## The opinion of a provider -/

namespace LabelProvider

/-- A provider does not fail when it is asked about a step. -/
def Answers (s : Scene) (executed : Instruction) (next : Option Instruction) (p : P) : Prop :=
  handlesTransitions p = true →
    (∃ answer, (breakAfter s executed p).2 = .ok answer) ∧
      ∀ i, next = some i → ∃ answer, (breakBefore s i (breakAfter s executed p).1).2 = .ok answer

/-- A provider that watches instructions has an opinion about a step: it answers one of its
questions with a set of labels, be it the empty one. -/
def Cuts (s : Scene) (executed : Instruction) (next : Option Instruction) (p : P) : Prop :=
  handlesTransitions p = true ∧
    ((∃ labels, (breakAfter s executed p).2 = .ok (some labels)) ∨
      ∃ i, next = some i ∧
        ∃ labels, (breakBefore s i (breakAfter s executed p).1).2 = .ok (some labels))

end LabelProvider

open LabelProvider

namespace Tally

/-! ## Inquiries -/

/-- A question about a step, to the provider at a place. -/
inductive Inquiry where
  | after (place : Nat)
  | before (place : Nat) (next : Instruction)

/-- The place of a question among all that could be put: those to a provider come after those to the
ones before it, and what is before an instruction comes last. -/
def Inquiry.rank : Inquiry → Nat
  | .after k => 2 * k
  | .before k _ => 2 * k + 1

/-- The questions about a step to the providers from a place on. -/
def inquiries (next : Option Instruction) : Nat → List P → List Inquiry
  | _, [] => []
  | k, p :: ps =>
    if handlesTransitions p then
      .after k :: next.toList.map (.before k) ++ inquiries next (k + 1) ps
    else inquiries next (k + 1) ps

/-- What has come of the questions put so far: the providers, the labels gathered, and whether one
of the answers was a set of labels. -/
structure Poll (P : Type) where
  providers : List P
  tally : Tally
  wanted : Bool

/-- Takes down what the provider at a place has answered. -/
def Poll.note (poll : Poll P) (k : Nat) : P × Opinion → Except Fault (Poll P)
  | (_, .error f) => .error f
  | (p, .ok answer) =>
    .ok ⟨poll.providers.set k p, poll.tally.addAll (answer.getD []), poll.wanted || answer.isSome⟩

/-- Puts a question about a step. -/
def Poll.put (s : Scene) (executed : Instruction) (poll : Poll P) : Inquiry → Except Fault (Poll P)
  | .after k =>
    poll.providers[k]?.elim (.ok poll) fun p => poll.note k (breakAfter s executed p)
  | .before k i =>
    poll.providers[k]?.elim (.ok poll) fun p => poll.note k (breakBefore s i p)

variable {s : Scene} {executed : Instruction} {next : Option Instruction} {t t' : Tally}
  {ps ps' : List P}

omit [LabelProvider P] in
/-- The places from one on are the next one and those after it. -/
lemma getElem?_place {p : P} {j k : Nat} {C : P → Prop} :
    (k ≤ j ∧ ∃ q, (p :: ps)[j - k]? = some q ∧ C q) ↔
      (j = k ∧ C p) ∨ (k + 1 ≤ j ∧ ∃ q, ps[j - (k + 1)]? = some q ∧ C q) := by
  rcases Nat.lt_trichotomy j k with hj | rfl | hj
  · simp only [show ¬k ≤ j by omega, show ¬j = k by omega, show ¬k + 1 ≤ j by omega]
    tauto
  · simp
  · rw [show j - k = j - (k + 1) + 1 by omega, List.getElem?_cons_succ]
    simp [show k ≤ j by omega, show ¬j = k by omega, show k + 1 ≤ j by omega]

/-- Every provider that watches instructions is asked about the instruction that ran. -/
lemma after_mem_inquiries {j : Nat} : ∀ {k : Nat},
    .after j ∈ inquiries next k ps ↔
      k ≤ j ∧ ∃ p, ps[j - k]? = some p ∧ handlesTransitions p = true := by
  induction ps with
  | nil => simp [inquiries]
  | cons p ps ih =>
    intro k
    rw [getElem?_place, ← ih, inquiries]
    split <;> simp_all

/-- Every provider that watches instructions is asked about the next one, if there is one. -/
lemma before_mem_inquiries {j : Nat} {i : Instruction} : ∀ {k : Nat},
    .before j i ∈ inquiries next k ps ↔
      next = some i ∧ k ≤ j ∧ ∃ p, ps[j - k]? = some p ∧ handlesTransitions p = true := by
  induction ps with
  | nil => simp [inquiries]
  | cons p ps ih =>
    intro k
    rw [getElem?_place, and_or_left, ← ih, inquiries]
    split
    · rename_i hh
      simp only [hh, and_true, List.mem_append, List.mem_cons, List.mem_map, Option.mem_toList,
        reduceCtorEq, false_or, Inquiry.before.injEq, ih]
      constructor
      · rintro (⟨i, rfl, rfl, rfl⟩ | h)
        · exact .inl ⟨rfl, rfl⟩
        · exact .inr h
      · rintro (⟨rfl, rfl⟩ | h)
        · exact .inl ⟨i, rfl, rfl, rfl⟩
        · exact .inr h
    · simp_all

/-- Inquiries to providers from a place on come after those to the ones before it. -/
lemma le_rank_of_mem_inquiries {q : Inquiry} : ∀ {k : Nat},
    q ∈ inquiries next k ps → 2 * k ≤ q.rank := by
  induction ps with
  | nil => simp [inquiries]
  | cons p ps ih =>
    intro k hq
    rw [inquiries] at hq
    split at hq
    · rw [List.mem_append, List.mem_cons, List.mem_map] at hq
      obtain (rfl | ⟨i, -, rfl⟩) | hq := hq
      · exact Nat.le_refl _
      · exact Nat.le_succ _
      · exact Nat.le_trans (by omega) (ih hq)
    · exact Nat.le_trans (by omega) (ih hq)

/-- The questions are put in the order of the providers, and each of them once. -/
lemma pairwise_inquiries : ∀ {k : Nat},
    (inquiries next k ps).Pairwise fun q q' => q.rank < q'.rank := by
  induction ps with
  | nil => exact .nil
  | cons p ps ih =>
    intro k
    rw [inquiries]
    split
    · rw [List.pairwise_append]
      refine ⟨?_, ih, fun q hq q' hq' => ?_⟩
      · cases next <;> simp [Inquiry.rank]
      · have hle : 2 * (k + 1) ≤ q'.rank := le_rank_of_mem_inquiries hq'
        have hlt : q.rank ≤ 2 * k + 1 := by
          rw [List.mem_cons, List.mem_map] at hq
          obtain rfl | ⟨i, -, rfl⟩ := hq
          · exact Nat.le_succ _
          · exact Nat.le_refl _
        omega
    · exact ih

/-! ## Answers -/

/-- A provider that does not fail says of a step whether it has an opinion about it. -/
lemma exists_askBreak {p : P} (hh : handlesTransitions p = true)
    (h : Answers s executed next p) (t : Tally) :
    ∃ p' t' b, askBreak s executed next p t = (p', t', .ok b) ∧
      (b = true ↔ Cuts s executed next p) := by
  obtain ⟨⟨after, hafter⟩, hbefore⟩ := h hh
  cases hp : breakAfter s executed p with
  | mk q a =>
    rw [hp] at hafter hbefore
    obtain rfl : a = .ok after := hafter
    cases next with
    | none =>
      refine ⟨q, t.addAll (after.getD []), after.isSome, by simp [askBreak, hp], ?_⟩
      simp [Cuts, hh, hp, Option.isSome_iff_exists]
    | some i =>
      obtain ⟨before, hbefore⟩ := hbefore i rfl
      cases hq : breakBefore s i q with
      | mk q' b =>
        rw [hq] at hbefore
        obtain rfl : b = .ok before := hbefore
        refine ⟨q', (t.addAll (after.getD [])).addAll (before.getD []),
          after.isSome || before.isSome, by simp [askBreak, hp, hq], ?_⟩
        simp [Cuts, hh, hp, hq, Option.isSome_iff_exists]

/-- Providers that do not fail say of a step whether one of them has an opinion about it. -/
lemma exists_askBreaks (h : ∀ p ∈ ps, Answers s executed next p) : ∀ t : Tally,
    ∃ ps' t' b, askBreaks s executed next ps t = (ps', t', .ok b) ∧
      (b = true ↔ ∃ p ∈ ps, Cuts s executed next p) := by
  induction ps with
  | nil => exact fun t => ⟨[], t, false, rfl, by simp⟩
  | cons p ps ih =>
    intro t
    obtain ⟨hp, hps⟩ := List.forall_mem_cons.mp h
    rw [askBreaks]
    split
    · rename_i hh
      obtain ⟨p', u, b, hask, hb⟩ := exists_askBreak hh hp t
      obtain ⟨ps', t', b', hrest, hb'⟩ := ih hps u
      exact ⟨p' :: ps', t', b || b', by simp [hask, hrest, Except.map], by simp [hb, hb']⟩
    · rename_i hh
      obtain ⟨ps', t', b, hrest, hb⟩ := ih hps t
      exact ⟨p :: ps', t', b, by simp [hrest], by simp [hb, Cuts, hh]⟩

omit [LabelProvider P] in
/-- The answer of the provider at a place is taken down there. -/
lemma note_append {done rest : List P} {p p' : P} {c : Bool} {answer : Option (List Label)} :
    Poll.note ⟨done ++ p :: rest, t, c⟩ done.length (p', .ok answer) =
      .ok ⟨done ++ p' :: rest, t.addAll (answer.getD []), c || answer.isSome⟩ := by
  simp [Poll.note]

/-- Asking a provider is putting its questions. -/
lemma foldlM_askBreak {done rest : List P} {p p' : P} {b c : Bool}
    (h : askBreak s executed next p t = (p', t', .ok b)) :
    (.after done.length :: next.toList.map (.before done.length)).foldlM (Poll.put s executed)
      ⟨done ++ p :: rest, t, c⟩ = .ok ⟨done ++ p' :: rest, t', c || b⟩ := by
  obtain ⟨q, after, hafter, hnext⟩ := askBreak_cases h
  have hput : Poll.put s executed ⟨done ++ p :: rest, t, c⟩ (.after done.length) =
      pure ⟨done ++ q :: rest, t.addAll (after.getD []), c || after.isSome⟩ := by
    refine Eq.trans ?_ (note_append (p := p))
    rw [← hafter]
    simp [Poll.put]
  rw [List.foldlM_cons, hput, pure_bind]
  rcases hnext with ⟨rfl, rfl, rfl, rfl⟩ | ⟨i, before, rfl, hbefore, rfl, rfl⟩
  · rfl
  · rw [Option.toList_some, List.map_singleton, List.foldlM_cons, ← Bool.or_assoc,
      ← note_append (p := q), ← hbefore]
    simp [Poll.put]

/-- Asking the providers is putting the questions one by one.

**Proof sketch.** Induction on the providers that have not been asked yet; those that have been asked
stand before them, so that a place keeps its number. -/
theorem foldlM_inquiries : ∀ (done : List P) {t : Tally} {ps' : List P} {b : Bool} (c : Bool),
    askBreaks s executed next ps t = (ps', t', .ok b) →
      (inquiries next done.length ps).foldlM (Poll.put s executed) ⟨done ++ ps, t, c⟩ =
        .ok ⟨done ++ ps', t', c || b⟩ := by
  induction ps with
  | nil =>
    intro done t ps' b c h
    simp only [askBreaks, Prod.mk.injEq, Except.ok.injEq] at h
    obtain ⟨rfl, rfl, rfl⟩ := h
    rw [Bool.or_false]
    rfl
  | cons p ps ih =>
    intro done t ps' b c h
    -- the provider that has just been asked is one of those before the rest
    have rest : ∀ {q : P} {u : Tally} {qs : List P} {b : Bool} (c : Bool),
        askBreaks s executed next ps u = (qs, t', .ok b) →
          (inquiries next (done.length + 1) ps).foldlM (Poll.put s executed)
            ⟨done ++ q :: ps, u, c⟩ = .ok ⟨done ++ q :: qs, t', c || b⟩ := by
      intro q u qs b c h
      simpa using ih (done ++ [q]) c h
    rcases askBreaks_cases h with
      ⟨hh, q, u, b, qs, b', hask, hrest, rfl, rfl⟩ | ⟨hh, qs, hrest, rfl⟩
    · rw [inquiries, if_pos hh, List.foldlM_append, foldlM_askBreak hask, ← Bool.or_assoc]
      exact rest _ hrest
    · rw [inquiries, if_neg (by simp [hh])]
      exact rest c hrest

end Tally

/-! ## What writers ask for -/

/-- A reaction that asks for a boundary if something wants it, and for nothing else. -/
structure Reaction.Breaks (r : Reaction) (wanted : Prop) : Prop where
  failure : r.failure = .none
  terminate : r.terminate = false
  breaks : r.breakReason.isSome = true ↔ wanted

/-- Of two reactions one is enough for a boundary. -/
lemma Reaction.Breaks.andThen {r r' : Reaction} {a b : Prop} (h : r.Breaks a) (h' : r'.Breaks b) :
    (r.andThen r').Breaks (a ∨ b) where
  failure := by simp [Reaction.andThen, h.failure, h'.failure]
  terminate := by simp [Reaction.andThen, h.terminate, h'.terminate]
  breaks := by
    rw [← h.breaks, ← h'.breaks]
    cases hr : r.breakReason <;> cases hr' : r'.breakReason <;> simp [Reaction.andThen, hr, hr']

lemma Reaction.Breaks.congr {r : Reaction} {a b : Prop} (h : r.Breaks a) (hab : a ↔ b) :
    r.Breaks b :=
  propext hab ▸ h

namespace Writer

/-- What becomes of a writer at a step comes of some questions: each provider that watches
instructions is asked once about the instruction that ran and, if there is one, once about the next,
in the order of the providers, and an answer changes neither what the others are asked nor what
they answer. -/
structure Consults (w w' : Writer P) (s : Scene) (executed : Instruction)
    (next : Option Instruction) (qs : List Tally.Inquiry) : Prop where
  ordered : qs.Pairwise fun q q' => q.rank < q'.rank
  after_mem : ∀ k, .after k ∈ qs ↔
    ∃ p, w.providers[k]? = some p ∧ handlesTransitions p = true
  before_mem : ∀ k i, .before k i ∈ qs ↔
    next = some i ∧ ∃ p, w.providers[k]? = some p ∧ handlesTransitions p = true
  answered : ∃ b, qs.foldlM (Tally.Poll.put s executed) ⟨w.providers, w.tally.clear, false⟩ =
      .ok ⟨w'.providers, w'.tally, b⟩ ∧
    (b = true ↔ ∃ p ∈ w.providers, Cuts s executed next p)

variable {w : Writer P} {view : View} {i : Instruction} {next : Option Instruction}

/-- A writer none of whose providers fails asks for a boundary if one of them has an opinion. -/
lemma breaks_hear (h : ∀ p ∈ w.providers, Answers view.scene i next p) (e : Surroundings) :
    (w.hear e view (.executed i next)).2.2.Breaks
      (∃ p ∈ w.providers, Cuts view.scene i next p) := by
  obtain ⟨ps, t, b, hask, hb⟩ := Tally.exists_askBreaks h w.tally.clear
  rw [← hb, hear, hask]
  exact ⟨rfl, rfl, by cases b <;> simp⟩

/-- A writer none of whose providers fails consults them about every step. -/
lemma consults_attend (h : ∀ p ∈ w.providers, Answers view.scene i next p) :
    w.Consults (w.attend ⟨view, .executed i next⟩) view.scene i next
      (Tally.inquiries next 0 w.providers) := by
  obtain ⟨ps, t, b, hask, hb⟩ := Tally.exists_askBreaks h w.tally.clear
  have hattend : w.attend ⟨view, .executed i next⟩ = { w with providers := ps, tally := t } := by
    rw [attend, hear, hask]
  refine ⟨Tally.pairwise_inquiries, fun k => ?_, fun k j => ?_, b, ?_, hb⟩
  · simp [Tally.after_mem_inquiries]
  · simp [Tally.before_mem_inquiries]
  · rw [hattend]
    simpa using Tally.foldlM_inquiries [] false hask

end Writer

namespace Listeners

open Transcript

/-- Label writers all hear a notice unless one of them fails. -/
lemma hearAll_writers (view : View) (n : Notice) : ∀ (ws : List (Writer P)) (e : Surroundings),
    (hearAll view n (ws.map .writer) e).2.2.failure = none →
      (hearAll view n (ws.map .writer) e).1 = (ws.map (·.attend ⟨view, n⟩)).map .writer ∧
        ∀ w ∈ ws, ¬w.FailsAt ⟨view, n⟩
  | [], _, _ => ⟨rfl, by simp⟩
  | w :: ws, e, h => by
    rw [List.map_cons, hearAll, hearOne_writer] at h ⊢
    by_cases hfail : (w.hear e view n).2.2.failure.isSome = true
    · simp only [if_pos hfail] at h
      simp [h] at hfail
    · have hr : (w.hear e view n).2.2.failure = none := by simpa using hfail
      simp only [Reaction.andThen, hr] at h ⊢
      obtain ⟨hmembers, hws⟩ := hearAll_writers view n ws _ h
      rw [hmembers]
      exact ⟨rfl, List.forall_mem_cons.mpr ⟨fun hw => hw ((w.hear_eq e view n).2 ▸ hr), hws⟩⟩

/-- Label writers whose providers do not fail ask for a boundary if one of the providers has an
opinion. -/
lemma breaks_hearAll (view : View) (i : Instruction) (next : Option Instruction) :
    ∀ (ws : List (Writer P)) (e : Surroundings),
      (∀ w ∈ ws, ∀ p ∈ w.providers, Answers view.scene i next p) →
        (hearAll view (.executed i next) (ws.map .writer) e).2.2.Breaks
          (∃ w ∈ ws, ∃ p ∈ w.providers, Cuts view.scene i next p)
  | [], _, _ => ⟨rfl, rfl, by simp [hearAll, Reaction.none]⟩
  | w :: ws, e, h => by
    obtain ⟨hw, hws⟩ := List.forall_mem_cons.mp h
    have hr := Writer.breaks_hear hw e
    rw [List.map_cons, hearAll, hearOne_writer]
    simp only [hr.failure, Option.isSome_none, Bool.false_eq_true, if_false]
    simpa using hr.andThen (breaks_hearAll view i next ws _ hws)

/-- Label writers have heard what is on record, up to a failure, and have reacted as is on
record. -/
structure Heard (ws : List (Writer P)) (x : Listeners P × Transcript) : Prop where
  members : (∀ e ∈ x.2, e.2.failure = none) →
    x.1.members = (ws.map (·.heard (log x.2))).map .writer
  takes : ∀ T, T <:+ x.2 → (∀ e ∈ T, e.2.failure = none) → ∀ w ∈ ws, w.Takes (log T)
  reacted : ∀ d r earlier, (d, r) :: earlier <:+ x.2 → (∀ e ∈ earlier, e.2.failure = none) →
    ∃ e, r = (hearAll d.view d.notice ((ws.map (·.heard (log earlier))).map .writer) e).2.2

/-- A notice is heard by label writers none of which has failed before. -/
lemma Heard.hear {ws : List (Writer P)} {x : Listeners P × Transcript} (h : Heard ws x)
    (view : View) (n : Notice) : Heard ws (audience.transcribed.hear x view n).1 := by
  obtain ⟨⟨members, e⟩, T⟩ := x
  have hmembers : (∀ e ∈ T, e.2.failure = none) →
      members = (ws.map (·.heard (log T))).map .writer := h.members
  refine ⟨fun hclean => ?_, fun T' hs hclean => ?_, fun d r earlier hs hclean => ?_⟩
  · obtain ⟨hr, hT⟩ := List.forall_mem_cons.mp hclean
    obtain rfl := hmembers hT
    exact (hearAll_writers view n _ e hr).1.trans
      (congrArg (List.map Listener.writer) List.map_map)
  · rcases List.suffix_cons_iff.mp hs with rfl | hs
    · obtain ⟨hr, hT⟩ := List.forall_mem_cons.mp hclean
      obtain rfl := hmembers hT
      intro w hw
      exact (h.takes T List.suffix_rfl hT w hw).cons
        ((hearAll_writers view n _ e hr).2 _ (List.mem_map_of_mem hw))
    · exact h.takes T' hs hclean
  · rcases List.suffix_cons_iff.mp hs with heq | hs
    · obtain ⟨hd, rfl⟩ := List.cons.inj heq
      obtain ⟨rfl, rfl⟩ := Prod.mk.inj hd
      obtain rfl := hmembers hclean
      exact ⟨e, rfl⟩
    · exact h.reacted d r earlier hs hclean

variable [DecidableEq κ] {Q : Program σ κ} {name : String} {depthLimit maxStates : Option Int}
  {outside : Scene}

/-- In every run whose listeners are label writers they react as they do to what they have heard. -/
theorem heard_after (ws : List (Writer P)) (e : Surroundings) (n : Nat) :
    Heard ws (Exploration.transcribedAfter Q audience name depthLimit maxStates outside
      ⟨ws.map .writer, e⟩ n).search.listeners := by
  refine Exploration.listeners_after (x := Exploration.ofSearch _) trivial ?_
    (fun view n h => h.hear view n) (fun r h => ⟨h.members, h.takes, h.reacted⟩) n
  refine ⟨fun _ => (congrArg (List.map Listener.writer) (List.map_id ws)).symm,
    fun T hs _ w _ => ?_, fun d r earlier hs => absurd (List.suffix_nil.mp hs) (by simp)⟩
  rw [List.suffix_nil.mp hs]
  exact w.takes_nil

end Listeners

/-! ## Runs -/

namespace Exploration

open Transcript

section Runs

variable [DecidableEq κ] {Q : Program σ κ} {name : String} {depthLimit maxStates : Option Int}
  {outside : Scene} {ws : List (Writer P)} {e₀ : Surroundings} {n : Nat}
  {later earlier : Transcript} {d : Delivery} {r : Reaction} {i : Instruction}
  {next : Option Instruction}

/-- Up to a delivery every writer has informed its providers. -/
lemma providers_before
    (h : (transcribedAfter Q Listeners.audience name depthLimit maxStates outside
      ⟨ws.map .writer, e₀⟩ n).search.listeners.2 = later ++ (d, r) :: earlier)
    {w : Writer P} (hw : w ∈ ws) :
    (w.heard (log earlier)).providers = w.providers.map fun p => informed p (log earlier) := by
  have hheard : Listeners.Heard ws (transcribedAfter Q Listeners.audience name depthLimit maxStates
    outside ⟨ws.map .writer, e₀⟩ n).search.listeners := Listeners.heard_after ws e₀ n
  exact Writer.providers_heard (hheard.takes earlier ⟨later ++ [(d, r)], by simp [h]⟩
    (clean_before h) w hw)

/-- If no provider fails that has been informed of what comes before a step, none does that the
writers have by then. -/
lemma answers_before
    (h : (transcribedAfter Q Listeners.audience name depthLimit maxStates outside
      ⟨ws.map .writer, e₀⟩ n).search.listeners.2 = later ++ (d, r) :: earlier)
    (ha : ∀ w ∈ ws, ∀ p ∈ w.providers, Answers d.view.scene i next (informed p (log earlier)))
    {w : Writer P} (hw : w ∈ ws) :
    ∀ p ∈ (w.heard (log earlier)).providers, Answers d.view.scene i next p := by
  rw [providers_before h hw]
  exact List.forall_mem_map.mpr (ha w hw)

/-- The reaction of label writers to the conclusion of an instruction. -/
lemma breaks_of_executed
    (h : (transcribedAfter Q Listeners.audience name depthLimit maxStates outside
      ⟨ws.map .writer, e₀⟩ n).search.listeners.2 = later ++ (d, r) :: earlier)
    (hd : d.notice = .executed i next)
    (ha : ∀ w ∈ ws, ∀ p ∈ w.providers, Answers d.view.scene i next (informed p (log earlier))) :
    r.Breaks
      (∃ w ∈ ws, ∃ p ∈ w.providers, Cuts d.view.scene i next (informed p (log earlier))) := by
  obtain ⟨e, rfl⟩ :=
    (Listeners.heard_after ws e₀ n).reacted d r earlier ⟨later, h.symm⟩ (clean_before h)
  rw [hd]
  refine (Listeners.breaks_hearAll d.view i next _ e ?_).congr ?_
  · exact List.forall_mem_map.mpr fun w hw => answers_before h ha hw
  · simp only [List.mem_map, exists_exists_and_eq_and]
    refine exists_congr fun w => and_congr_right fun hw => ?_
    simp only [providers_before h hw, List.mem_map, exists_exists_and_eq_and]

/-- When the last instruction of a program has been concluded, the end state comes next, or the last
notice, and then nothing more, if the search has been ended by then. -/
def Closes (x : Exploration σ (Listeners P × Transcript) κ) (rest : Transcript) (d : Delivery) :
    Prop :=
  if x.search.terminated then d.notice = .finished ∧ rest = []
  else d.notice = .advanced ∧ d.view.isEnd = true

/-- Transitions are cut where a provider has an opinion, in every run whose listeners are label
writers, at every step at which no provider fails. If another instruction follows, the next notice
is that of a boundary if and only if a provider of some writer answers one of its questions
with a set of labels, and else it announces that instruction. If none follows, the end state comes
next, unless the search has been ended: then only the last notice follows. A boundary that has to
follow is missing only if no fingerprint of it can be made: then nothing is delivered any more.
What becomes of every writer comes of the questions to its providers, which it has informed of
everything before: each provider that watches instructions is asked both, or the first only if no
instruction follows, in the order of the providers.

**Proof sketch.** That the writers have heard what was delivered and react as they do to it is an
invariant, `Listeners.heard_after`, and so is what follows the conclusion of an instruction for a
given reaction, `exists_sequel`. The reaction is that of providers that do not see one another,
`Listeners.breaks_hearAll`. -/
theorem cut_where_wanted
    (h : (transcribedAfter Q Listeners.audience name depthLimit maxStates outside
      ⟨ws.map .writer, e₀⟩ n).search.listeners.2 = later ++ (d, r) :: earlier)
    (hd : d.notice = .executed i next)
    (ha : ∀ w ∈ ws, ∀ p ∈ w.providers, Answers d.view.scene i next (informed p (log earlier))) :
    ((later = [] ∧
        Stranded Q Listeners.audience name depthLimit maxStates outside ⟨ws.map .writer, e₀⟩ n d r
          earlier ∧
        ∀ j, next = some j →
          ∃ w ∈ ws, ∃ p ∈ w.providers, Cuts d.view.scene i next (informed p (log earlier))) ∨
      ∃ (rest : Transcript) (d' : Delivery) (r' : Reaction), later = rest ++ [(d', r')] ∧
      (∀ j, next = some j →
        (d'.notice = .advanced ↔
          ∃ w ∈ ws, ∃ p ∈ w.providers, Cuts d.view.scene i next (informed p (log earlier))) ∧
        (d'.notice = .advanced ∨ d'.notice = .executing j)) ∧
      (next = none → ∃ m < n,
        (transcribedAfter Q Listeners.audience name depthLimit maxStates outside
          ⟨ws.map .writer, e₀⟩ m).search.listeners.2 <:+ earlier ∧
        (d, r) :: earlier <:+ (transcribedAfter Q Listeners.audience name depthLimit maxStates
          outside ⟨ws.map .writer, e₀⟩ (m + 1)).search.listeners.2 ∧
        Closes (transcribedAfter Q Listeners.audience name depthLimit maxStates outside
          ⟨ws.map .writer, e₀⟩ m) rest d')) ∧
    ∀ w ∈ ws,
      (w.heard (log earlier)).providers = w.providers.map (fun p => informed p (log earlier)) ∧
      ∃ qs, (w.heard (log earlier)).Consults ((w.heard (log earlier)).attend d) d.view.scene i
        next qs := by
  have hr := breaks_of_executed h hd ha
  refine ⟨?_, fun w hw => ?_⟩
  · rcases exists_sequel h hd with ⟨-, hfail⟩ | ⟨hlast, hstranded⟩ |
      ⟨rest, ⟨d', r'⟩, m, rfl, hm, hbefore, hafter, hseq⟩
    · exact absurd hr.failure hfail
    · refine .inl ⟨hlast, hstranded, fun j hj => hr.breaks.mp ?_⟩
      obtain ⟨m, -, f, -, ⟨-, howes⟩, -⟩ := hstranded
      subst hj
      simpa only [hd] using howes
    · refine .inr ⟨rest, d', r', rfl, fun j hj => ?_, fun hnone =>
        ⟨m, hm, hbefore, (List.suffix_cons _ _).trans hafter, ?_⟩⟩
      · subst hj
        have hnext := hseq.2
        simp only [hd] at hnext
        rw [← hr.breaks]
        split at hnext <;> simp_all
      · subst hnone
        have hnext := hseq.2
        simp only [hd, hr.terminate, Bool.or_false] at hnext
        rw [Closes]
        split
        · rename_i hover
          rw [if_pos hover] at hnext
          have hheeded : Heeded (transcribedAfter Q Listeners.audience name depthLimit maxStates
            outside ⟨ws.map .writer, e₀⟩ n).search.listeners.2 := (heeding_after n).heeded
          rw [h, List.append_assoc] at hheeded
          exact ⟨hnext, hheeded.eq_nil hnext⟩
        · rename_i hover
          rwa [if_neg hover] at hnext
  · obtain ⟨view, notice⟩ := d
    obtain rfl : notice = .executed i next := hd
    exact ⟨providers_before h hw, _, Writer.consults_attend (answers_before h ha hw)⟩

/-- Two writers: the providers of the first one have no opinion, and one of those of the second
always has the empty set of labels. -/
def twoWriters : List (Writer ConstantProvider) :=
  [.new [⟨none⟩] (.ofFormat .text) (.ofText "out"),
    .new [⟨none⟩, ⟨some []⟩] (.ofFormat .dot) (.ofText "out")]

/-- The search of the march, which runs two instructions, with two writers. -/
def marchWritten (n : Nat) : Exploration Nat (Listeners ConstantProvider × Transcript) Nat :=
  transcribedAfter march Listeners.audience "march" none none ⟨.empty, .empty, #[]⟩
    ⟨twoWriters.map .writer, .empty⟩ n

/-- After the first instruction of the march comes a boundary, since a provider has the empty set of
labels to say of it. -/
theorem cut_where_wanted_march :
    ∃ (later earlier : Transcript) (d d' : Delivery) (r r' : Reaction) (i j : Instruction),
      (marchWritten 4).search.listeners.2 = later ++ [(d', r')] ++ (d, r) :: earlier ∧
      d.notice = .executed i (some j) ∧ d'.notice = .advanced ∧
      (∀ w ∈ twoWriters, ∀ p ∈ w.providers,
        Answers d.view.scene i (some j) (informed p (log earlier))) ∧
      (∃ w ∈ twoWriters, ∃ p ∈ w.providers,
        Cuts d.view.scene i (some j) (informed p (log earlier))) ∧
      ∀ w ∈ twoWriters,
        (w.heard (log earlier)).providers = w.providers.map (fun p => informed p (log earlier)) ∧
        ∃ qs, (w.heard (log earlier)).Consults ((w.heard (log earlier)).attend d) d.view.scene i
          (some j) qs := by
  have hkinds : (marchWritten 4).search.listeners.2.map
      (fun e => (e.1.notice.isBetween, EventKind.ofNotice? e.1.notice)) =
        [(false, none), (false, some .advanced), (true, none), (false, none),
          (false, some .started)] := by decide +kernel
  obtain ⟨x, T, hT, -, hkinds⟩ := List.map_eq_cons_iff.mp hkinds
  obtain ⟨⟨d', r'⟩, T, rfl, hd', hkinds⟩ := List.map_eq_cons_iff.mp hkinds
  obtain ⟨⟨d, r⟩, earlier, rfl, hd, -⟩ := List.map_eq_cons_iff.mp hkinds
  obtain ⟨i, j, hd⟩ : ∃ i j, d.notice = .executed i (some j) := by
    have hd := (Prod.mk.inj hd).1
    unfold Notice.isBetween at hd
    split at hd
    · exact ⟨_, _, ‹_›⟩
    · simp at hd
  have hd' : d'.notice = .advanced := by
    cases hn : d'.notice <;> simp_all [EventKind.ofNotice?]
  have hanswers : ∀ w ∈ twoWriters, ∀ p ∈ w.providers,
      Answers d.view.scene i (some j) (informed p (log earlier)) :=
    fun _ _ _ _ _ => ⟨⟨_, rfl⟩, fun _ _ => ⟨_, rfl⟩⟩
  have hsplit : (marchWritten 4).search.listeners.2 = [x, (d', r')] ++ (d, r) :: earlier := hT
  obtain ⟨hlater, hconsults⟩ := cut_where_wanted hsplit hd hanswers
  obtain ⟨rest, e, r'', hlater, hnext, -⟩ := hlater.resolve_left fun h => by simp at h
  have hlater : [x] ++ [(d', r')] = rest ++ [(e, r'')] := hlater
  obtain ⟨rfl, hlast⟩ := List.append_inj' hlater rfl
  obtain ⟨rfl, rfl⟩ : d' = e ∧ r' = r'' := by simpa using hlast
  exact ⟨[x], earlier, d, d', r, r', i, j, hT, hd, hd', hanswers,
    (hnext j rfl).1.mp hd', hconsults⟩

/-! ## A search that has been ended -/

/-- The program whose last instruction ends the search and then raises an exception:
`s = Verify._search` and `next(map(len, map(type(s).terminate, [s])))`. -/
def departs : CodeProgram :=
  .asking "departs" []
    ([⟨14, "LOAD_NAME", .text "Verify", .loadName "Verify"⟩,
      ⟨16, "LOAD_ATTR", .text "_search", .loadAttribute "_search"⟩,
      ⟨26, "STORE_NAME", .text "s", .storeName "s"⟩,
      ⟨28, "PUSH_NULL", .absent, .pushNull⟩,
      ⟨30, "LOAD_NAME", .text "next", .loadName "next"⟩,
      ⟨32, "PUSH_NULL", .absent, .pushNull⟩,
      ⟨34, "LOAD_NAME", .text "map", .loadName "map"⟩,
      ⟨36, "LOAD_NAME", .text "len", .loadName "len"⟩,
      ⟨38, "PUSH_NULL", .absent, .pushNull⟩,
      ⟨40, "LOAD_NAME", .text "map", .loadName "map"⟩,
      ⟨42, "PUSH_NULL", .absent, .pushNull⟩,
      ⟨44, "LOAD_NAME", .text "type", .loadName "type"⟩,
      ⟨46, "LOAD_NAME", .text "s", .loadName "s"⟩,
      ⟨48, "PRECALL", .number 1, .idle⟩,
      ⟨52, "CALL", .number 1, .call 1⟩,
      ⟨62, "LOAD_ATTR", .text "terminate", .loadAttribute "terminate"⟩,
      ⟨72, "LOAD_NAME", .text "s", .loadName "s"⟩,
      ⟨74, "BUILD_LIST", .number 1, .buildList 1⟩,
      ⟨76, "PRECALL", .number 2, .idle⟩,
      ⟨80, "CALL", .number 2, .call 2⟩,
      ⟨90, "PRECALL", .number 2, .idle⟩,
      ⟨94, "CALL", .number 2, .call 2⟩,
      ⟨104, "PRECALL", .number 1, .idle⟩,
      ⟨108, "CALL", .number 1, .call 1⟩,
      ⟨118, "POP_TOP", .absent, .popTop⟩] ++ CodeProgram.leaveSteps 120)

/-- The search of `departs` with a writer that has one provider without opinions. -/
def departsAfter (n : Nat) :
    Exploration Process (Listeners ConstantProvider × Transcript) (List Frozen.Mark) :=
  transcribedAfter departs.program Listeners.audience "departs" none none ⟨.empty, .empty, #[]⟩
    ⟨[Writer.new [⟨none⟩] (.plain #[] #[]) (.ofText "out")].map .writer, .empty⟩ n

/-- The program that deletes the name of its module: `del __name__`. -/
def forgets : CodeProgram :=
  .ofSteps "forgets" []
    ([⟨0, "RESUME", .number 0, .resume⟩,
      ⟨2, "DELETE_NAME", .text "__name__", .deleteName "__name__"⟩] ++ CodeProgram.leaveSteps 4)

/-- The search of `forgets` with a writer that has one provider without opinions. -/
def forgetsAfter (n : Nat) :
    Exploration Process (Listeners ConstantProvider × Transcript) (List Frozen.Mark) :=
  transcribedAfter forgets.program Listeners.audience "forgets" none none ⟨.empty, .empty, #[]⟩
    ⟨[Writer.new [⟨none⟩] (.plain #[] #[]) (.ofText "out")].map .writer, .empty⟩ n

/-- The end state need not be reached: the last instruction of `departs` has been concluded without
a failure, and only the last notice follows; and after that of `forgets` nothing follows, since there
is no fingerprint of a module without a name. -/
theorem end_not_reached :
    (∃ (last : Delivery × Reaction) (earlier : Transcript) (d : Delivery) (r : Reaction)
      (i : Instruction), d.notice = .executed i none ∧ r.failure = none ∧
      last.1.notice = .finished ∧
      ∀ n, 83 ≤ n → (departsAfter n).stage = .ended .completed ∧
        (departsAfter n).search.listeners.2 = last :: (d, r) :: earlier) ∧
    ∃ (earlier : Transcript) (d : Delivery) (r : Reaction) (i : Instruction),
      d.notice = .executed i none ∧ r.failure = none ∧
      ∀ n, 12 ≤ n →
        (forgetsAfter n).stage = .ended (.failed (.missingRole "module" "__name__")) ∧
        (forgetsAfter n).search.listeners.2 = (d, r) :: earlier := by
  constructor
  · have hkinds : ((departsAfter 83).search.listeners.2.take 2).map
        (fun e => (e.1.notice.isLast, EventKind.ofNotice? e.1.notice, e.2.failure)) =
          [(false, some .finished, none), (true, none, none)] := by decide +kernel
    have hexit : (departsAfter 83).stage.exit? = some .completed := by decide +kernel
    obtain ⟨last, T, htake, hlast, hkinds⟩ := List.map_eq_cons_iff.mp hkinds
    obtain ⟨⟨d, r⟩, T, rfl, hd, hT⟩ := List.map_eq_cons_iff.mp hkinds
    obtain rfl := List.map_eq_nil_iff.mp hT
    simp only [Prod.mk.injEq] at hlast hd
    obtain ⟨i, hi⟩ := Notice.exists_of_isLast hd.1
    have hlast : last.1.notice = .finished := by
      cases hn : last.1.notice <;> simp_all [EventKind.ofNotice?]
    refine ⟨last, (departsAfter 83).search.listeners.2.drop 2, d, r, i, hi, hd.2.2, hlast,
      fun n hn => ?_⟩
    have hstage := Stage.eq_ended_of_exit? hexit
    have hafter : departsAfter n = departsAfter 83 := after_of_over hstage hn
    rw [hafter]
    refine ⟨hstage, (List.take_append_drop 2 _).symm.trans ?_⟩
    rw [htake, List.cons_append, List.cons_append, List.nil_append]
  · have hkinds : ((forgetsAfter 12).search.listeners.2.take 1).map
        (fun e => (e.1.notice.isLast, e.2.failure)) = [(true, none)] := by decide +kernel
    have hexit : (forgetsAfter 12).stage.exit? =
        some (.failed (.missingRole "module" "__name__")) := by decide +kernel
    obtain ⟨⟨d, r⟩, T, htake, hd, hT⟩ := List.map_eq_cons_iff.mp hkinds
    obtain rfl := List.map_eq_nil_iff.mp hT
    obtain ⟨hlast, hr⟩ := Prod.mk.inj hd
    obtain ⟨i, hi⟩ := Notice.exists_of_isLast hlast
    refine ⟨(forgetsAfter 12).search.listeners.2.drop 1, d, r, i, hi, hr, fun n hn => ?_⟩
    have hstage := Stage.eq_ended_of_exit? hexit
    have hafter : forgetsAfter n = forgetsAfter 12 := after_of_over hstage hn
    rw [hafter]
    refine ⟨hstage, (List.take_append_drop 1 _).symm.trans ?_⟩
    rw [htake, List.cons_append, List.nil_append]

end Runs

end Exploration

end StateAtlas
