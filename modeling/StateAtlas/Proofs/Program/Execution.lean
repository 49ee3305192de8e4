import Mathlib.Logic.Relation
import StateAtlas.Search.Program

set_option autoImplicit false

/-!
# Uninterrupted executions

What a program does when it runs once from its start to its end, with nobody who stops it: a
search, which executes the program in pieces and again and again, is measured against this. A
program is deterministic if an execution depends on the alternatives followed in it alone.

## Main definitions

* `StateAtlas.Place` — where an uninterrupted execution stands, and how it came there.
* `StateAtlas.Program.Onward` — one move of an uninterrupted execution.
* `StateAtlas.Program.Reaches` — the places of all executions, under any sequence of choices.
* `StateAtlas.Program.Alike` — two configurations that nothing can tell apart.
* `StateAtlas.Program.Deterministic` — every execution behaves like every other one.
* `StateAtlas.Program.Reproducible` — the states of every execution have the fingerprints that they
  have in every other one.
* `StateAtlas.Program.Honest` — no program sends the signal to stop by itself.
* `StateAtlas.Program.At` — a place at a boundary.
* `StateAtlas.Program.Leg` — the way from one boundary to the next.

## Main results

* `StateAtlas.Program.Onward.unique` — a move is determined by the alternative it follows.
* `StateAtlas.Program.Alike.exists_next` — alike configurations make alike moves.
* `StateAtlas.Program.honest_of_candid` — a program that ends can be seen to be honest.

## Design

A place remembers the alternatives and the instructions that led to it, so that it is one node of
the tree of all executions. Configurations of different executions are compared by what can be
seen of them, not as values: a program may keep a count of its executions as long as it makes no
use of it.

Where the boundaries of an execution lie depends on the listeners, who may ask for one before any
instruction. The places and answers of the listeners form a relation, which the notions of a
boundary and of a leg have as a parameter.
-/

namespace StateAtlas

variable {σ κ : Type}

/-- Where an uninterrupted execution stands, and how it came there. -/
structure Place (σ : Type) where
  config : σ
  /-- The frame of the last instruction. -/
  frame : Option FrameId
  /-- The last instruction that ran, with what became known of it. -/
  previous : Option Instruction
  /-- The alternatives followed so far, the first one first. -/
  choices : List Nat
  /-- The instructions that have run, each with the one after it. -/
  executed : List (Instruction × Instruction)

/-- The place after an instruction has begun. -/
def Place.begin (l : Place σ) (i : Instruction) (q : σ) : Place σ where
  config := q
  frame := some i.frame
  previous := some i
  choices := l.choices
  executed := l.executed ++ (l.previous.map fun e => (e, i)).toList

/-- The place after an alternative has been followed. -/
def Place.choose (l : Place σ) (a : Nat) (q : σ) : Place σ :=
  { l with config := q, choices := l.choices ++ [a] }

namespace Move

/-- The configuration after a move. -/
def config : Move σ → σ
  | .internal s | .print _ s | .instruction _ s | .effect _ s | .choice _ s | .terminate s
  | .ended _ s => s

/-- The same move with another configuration after it. -/
def withConfig (m : Move σ) (q : σ) : Move σ :=
  match m with
  | .internal _ => .internal q
  | .print text _ => .print text q
  | .instruction i _ => .instruction i q
  | .effect e _ => .effect e q
  | .choice options _ => .choice options q
  | .terminate _ => .terminate q
  | .ended ending _ => .ended ending q

/-- Two moves that differ in the configurations after them only, which are related. -/
def Alike (R : σ → σ → Prop) (m n : Move σ) : Prop := n = m.withConfig n.config ∧ R m.config n.config

/-- A move is the same move with its own configuration. -/
lemma withConfig_config (m : Move σ) : m.withConfig m.config = m := by cases m <;> rfl

/-- A configuration that has been put after a move is the one after it. -/
lemma config_withConfig (m : Move σ) (q : σ) : (m.withConfig q).config = q := by cases m <;> rfl

end Move

/-- The number of ways in which the program goes on from a boundary. -/
def Boundary.arity : Boundary → Nat
  | .requested => 1
  | .choice options => options
  | .finished => 0

namespace Program

variable (P : Program σ κ)

/-! ## Moves -/

/-- The place at which the execution of a number begins. -/
def startPlace (n : Nat) : Place σ := ⟨P.start n, none, none, [], []⟩

/-- One move of an execution that nobody stops: instructions proceed, and at a choice any of the
alternatives is followed. -/
inductive Onward : Place σ → Place σ → Prop
  | internal {l : Place σ} {q : σ} (h : P.next l.config = .internal q) :
      Onward l { l with config := q }
  | print {l : Place σ} {text : String} {q : σ} (h : P.next l.config = .print text q) :
      Onward l { l with config := q }
  | effect {l : Place σ} {e : Effect} {q : σ} (h : P.next l.config = .effect e q) :
      Onward l { l with config := q, previous := l.previous.map (·.apply e) }
  | instruction {l : Place σ} {i : Instruction} {q : σ}
      (h : P.next l.config = .instruction i q) : Onward l (l.begin i (P.reply q .proceed))
  | refuse {l : Place σ} {options : Int} {q : σ} (h : P.next l.config = .choice options q)
      (hn : options < 1) : Onward l { l with config := P.reply q (.refuse options) }
  | choose {l : Place σ} {options : Int} {q : σ} (h : P.next l.config = .choice options q)
      (a : Nat) (ha : (a : Int) < options) : Onward l (l.choose a (P.reply q (.choose a)))

/-- The places of all uninterrupted executions, under any sequence of choices. -/
def Reaches (l : Place σ) : Prop := Relation.ReflTransGen P.Onward (P.startPlace 0) l

variable {P}

/-- An execution follows alternatives one after another and forgets none. -/
lemma Onward.choices_prefix {l m : Place σ} (h : P.Onward l m) : l.choices <+: m.choices := by
  cases h with
  | choose h a ha => exact List.prefix_append _ _
  | _ => exact List.prefix_refl _

/-- The alternatives followed up to a place are the first ones of those followed later on. -/
lemma choices_prefix_of_onward {l m : Place σ} (h : Relation.ReflTransGen P.Onward l m) :
    l.choices <+: m.choices := by
  induction h with
  | refl => exact List.prefix_refl _
  | tail _ h ih => exact ih.trans h.choices_prefix

/-- A move is determined by the place it starts from and by alternatives that are followed up to
its end.

**Proof sketch.** The next move of the program is one and the same, which fixes the kind of both
moves. Two moves that follow an alternative follow the same one, which comes next in the list. -/
lemma Onward.unique {l m m' : Place σ} {choices : List Nat} (h : P.Onward l m)
    (h' : P.Onward l m') (hc : m.choices <+: choices) (hc' : m'.choices <+: choices) :
    m = m' := by
  cases h with
  | internal h => cases h' <;> simp_all
  | print h => cases h' <;> simp_all
  | effect h => cases h' <;> simp_all
  | instruction h => cases h' <;> simp_all
  | refuse h hn =>
    cases h' with
    | refuse h₂ _ => simp_all
    | choose h₂ a ha => simp only [h, Move.choice.injEq] at h₂; omega
    | _ => simp_all
  | choose h a ha =>
    cases h' with
    | refuse h₂ hn => simp only [h, Move.choice.injEq] at h₂; omega
    | choose h₂ b hb =>
      have hab : l.choices ++ [a] = l.choices ++ [b] :=
        (List.prefix_of_prefix_length_le hc hc' (by simp [Place.choose])).eq_of_length
          (by simp [Place.choose])
      obtain rfl : a = b := by simpa using hab
      simp_all
    | _ => simp_all

/-- An execution that is on its way to a choice stays on its way with every move that follows the
alternatives leading there. -/
lemma Onward.toward {l m m' : Place σ} (h : P.Onward m m')
    (hl : Relation.ReflTransGen P.Onward m l) (hc : m'.choices <+: l.choices)
    {n : Int} {q : σ} (hn : P.next l.config = .choice n q) (hpos : 1 ≤ n) :
    Relation.ReflTransGen P.Onward m' l := by
  rcases hl.cases_head with rfl | ⟨m'', h', hl'⟩
  · exfalso
    cases h with
    | choose h a ha =>
      have hle := hc.length_le
      simp only [Place.choose, List.length_append, List.length_singleton] at hle
      omega
    | refuse h hlt => simp only [hn, Move.choice.injEq] at h; omega
    | _ => simp_all
  · obtain rfl := h.unique h' hc (choices_prefix_of_onward hl')
    exact hl'

/-- An execution that follows the first alternatives leading to a choice is on its way to it. -/
lemma Reaches.toward {l m : Place σ} (hl : P.Reaches l) (hm : P.Reaches m)
    (hc : m.choices <+: l.choices) {n : Int} {q : σ} (hn : P.next l.config = .choice n q)
    (hpos : 1 ≤ n) : Relation.ReflTransGen P.Onward m l := by
  induction hm with
  | refl => exact hl
  | tail _ h ih => exact h.toward (ih (h.choices_prefix.trans hc)) hc hn hpos

/-- The choice that some alternatives lead to is reached at one place only. -/
lemma Reaches.eq_of_choices {l m : Place σ} (hl : P.Reaches l) (hm : P.Reaches m)
    (hc : m.choices = l.choices) {n k : Int} {q r : σ} (hn : P.next l.config = .choice n q)
    (hpos : 1 ≤ n) (hk : P.next m.config = .choice k r) (hpos' : 1 ≤ k) : m = l := by
  rcases (hl.toward hm (hc ▸ List.prefix_refl _) hn hpos).cases_head with h | ⟨m', h, hm'⟩
  · exact h
  · have hlen := (choices_prefix_of_onward hm').length_le
    cases h with
    | choose h a ha =>
      simp only [Place.choose, List.length_append, List.length_singleton, hc] at hlen
      omega
    | refuse h hlt =>
      rw [hk, Move.choice.injEq] at h
      omega
    | _ => simp_all

/-! ## Configurations that nothing can tell apart -/

variable (P) in
/-- A relation under which configurations show the same, do the same, and stay related. -/
structure Bisimulation (R : σ → σ → Prop) : Prop where
  scene : ∀ {p q}, R p q → P.scene p = P.scene q
  fingerprint : ∀ {p q}, R p q → ∀ i f b, P.fingerprint i p f b = P.fingerprint i q f b
  next : ∀ {p q}, R p q → Move.Alike R (P.next p) (P.next q)
  reply : ∀ {p q}, R p q → ∀ r, R (P.reply p r) (P.reply q r)

/-- Related configurations make the same move, to configurations that are related. -/
lemma Bisimulation.exists_next {R : σ → σ → Prop} (hR : P.Bisimulation R) {p p' : σ} (h : R p p')
    {m : Move σ} (hm : P.next p = m) : ∃ q, P.next p' = m.withConfig q ∧ R m.config q := by
  obtain ⟨hn, hc⟩ := hR.next h
  rw [hm] at hn hc
  exact ⟨_, hn, hc⟩

variable (P) in
/-- Two configurations that nothing can tell apart, whatever the program is told. -/
def Alike (p q : σ) : Prop := ∃ R, P.Bisimulation R ∧ R p q

variable (P) in
/-- Equality is a relation of this kind. -/
lemma bisimulation_eq : P.Bisimulation Eq where
  scene h := h ▸ rfl
  fingerprint h _ _ _ := h ▸ rfl
  next h := h ▸ ⟨(Move.withConfig_config _).symm, rfl⟩
  reply h _ := h ▸ rfl

/-- Equal configurations are alike. -/
lemma Alike.refl (p : σ) : P.Alike p p := ⟨Eq, P.bisimulation_eq, rfl⟩

/-- Alike configurations show the same. -/
lemma Alike.scene {p q : σ} (h : P.Alike p q) : P.scene p = P.scene q := by
  obtain ⟨R, hR, h⟩ := h
  exact hR.scene h

/-- Alike configurations have the same fingerprint at every boundary of an execution. -/
lemma Alike.fingerprint {p q : σ} (h : P.Alike p q) (i : Nat) (f : Option FrameId) (b : Boundary) :
    P.fingerprint i p f b = P.fingerprint i q f b := by
  obtain ⟨R, hR, h⟩ := h
  exact hR.fingerprint h i f b

/-- Alike configurations make alike moves. -/
lemma Alike.exists_next {p p' : σ} (h : P.Alike p p') {m : Move σ} (hm : P.next p = m) :
    ∃ q, P.next p' = m.withConfig q ∧ P.Alike m.config q := by
  obtain ⟨R, hR, h⟩ := h
  obtain ⟨q, hq, h⟩ := hR.exists_next h hm
  exact ⟨q, hq, R, hR, h⟩

/-- Alike configurations stay alike after the same reply. -/
lemma Alike.reply {p q : σ} (h : P.Alike p q) (r : Reply) :
    P.Alike (P.reply p r) (P.reply q r) := by
  obtain ⟨R, hR, h⟩ := h
  exact ⟨R, hR, hR.reply h r⟩

variable (P) in
/-- Every execution behaves like every other one, as long as it is told the same. -/
def Deterministic : Prop := ∀ m n, P.Alike (P.start m) (P.start n)

variable (P) in
/-- Two configurations that nothing can tell apart, not even if their fingerprints are made in
different executions. -/
def Twins (p q : σ) : Prop :=
  ∃ R, P.Bisimulation R ∧
    (∀ {p q}, R p q → ∀ i j f b, P.fingerprint i p f b = P.fingerprint j q f b) ∧ R p q

variable (P) in
/-- Every execution behaves like every other one, and its states have the same fingerprints: no
state keeps anything that is made anew by each execution and told apart by what it is. -/
def Reproducible : Prop := ∀ m n, P.Twins (P.start m) (P.start n)

/-- Twins are alike. -/
lemma Twins.alike {p q : σ} (h : P.Twins p q) : P.Alike p q := by
  obtain ⟨R, hR, -, h⟩ := h
  exact ⟨R, hR, h⟩

/-- Twins have the same fingerprint at every boundary, in whichever executions. -/
lemma Twins.fingerprint {p q : σ} (h : P.Twins p q) (i j : Nat) (f : Option FrameId)
    (b : Boundary) : P.fingerprint i p f b = P.fingerprint j q f b := by
  obtain ⟨R, -, hf, h⟩ := h
  exact hf h i j f b

variable (P) in
/-- Twins make the same moves, and stay twins. -/
lemma bisimulation_twins : P.Bisimulation P.Twins where
  scene h := h.alike.scene
  fingerprint h := h.alike.fingerprint
  next := by
    rintro p q ⟨R, hR, hf, h⟩
    exact ⟨(hR.next h).1, R, hR, hf, (hR.next h).2⟩
  reply := by
    rintro p q ⟨R, hR, hf, h⟩ r
    exact ⟨R, hR, hf, hR.reply h r⟩

/-- Twins make alike moves. -/
lemma Twins.exists_next {p p' : σ} (h : P.Twins p p') {m : Move σ} (hm : P.next p = m) :
    ∃ q, P.next p' = m.withConfig q ∧ P.Twins m.config q :=
  P.bisimulation_twins.exists_next h hm

/-- Twins stay twins after the same reply. -/
lemma Twins.reply {p q : σ} (h : P.Twins p q) (r : Reply) :
    P.Twins (P.reply p r) (P.reply q r) :=
  P.bisimulation_twins.reply h r

variable (P) in
/-- The signal to stop leaves the program only after the search has sent it: no program sends it
by itself. -/
def Honest : Prop := ∀ l q, P.Reaches l → P.next l.config ≠ .ended .stopped q

variable (P) in
/-- A running program ends within a number of moves, whatever it is told, and not with the signal to
stop. -/
def candid : Nat → σ → Bool
  | 0, _ => false
  | fuel + 1, p =>
    match P.next p with
    | .internal q | .print _ q | .effect _ q => candid fuel q
    | .instruction _ q => candid fuel (P.reply q .proceed)
    | .choice n q =>
      if n < 1 then candid fuel (P.reply q (.refuse n))
      else (List.range n.toNat).all fun a => candid fuel (P.reply q (.choose a))
    | .terminate _ => true
    | .ended ending _ => ending ≠ .stopped

/-- A candid program stays so. -/
lemma candid_onward {fuel : Nat} {l m : Place σ} (h : P.candid (fuel + 1) l.config = true)
    (hm : P.Onward l m) : P.candid fuel m.config = true := by
  rw [candid] at h
  cases hm with
  | internal hn | print hn | effect hn | instruction hn =>
    rw [hn] at h
    exact h
  | refuse hn hlt =>
    rw [hn] at h
    simpa only [if_pos hlt] using h
  | @choose n q hn a ha =>
    have hpos : ¬n < 1 := by omega
    rw [hn] at h
    simp only [if_neg hpos, List.all_eq_true, List.mem_range] at h
    exact h a (by omega)

/-- A program is honest if it is candid from its start. -/
lemma honest_of_candid (fuel : Nat) (h : P.candid fuel (P.start 0) = true) : P.Honest := by
  have places : ∀ l, P.Reaches l → ∃ fuel, P.candid fuel l.config = true := by
    intro l hl
    induction hl with
    | refl => exact ⟨fuel, h⟩
    | tail _ hm ih =>
      obtain ⟨fuel, hfuel⟩ := ih
      cases fuel with
      | zero => cases hfuel
      | succ fuel => exact ⟨fuel, candid_onward hfuel hm⟩
  intro l q hl hq
  obtain ⟨fuel, hfuel⟩ := places l hl
  cases fuel with
  | zero => cases hfuel
  | succ fuel => simp [candid, hq] at hfuel

/-- A move of an execution goes on to a place of the execution. -/
lemma Reaches.onward {l m : Place σ} (h : P.Reaches l) (hm : P.Onward l m) : P.Reaches m :=
  Relation.ReflTransGen.tail h hm

/-- A program is reproducible if nothing in it depends on the number of the execution. -/
lemma reproducible_of_constant (hs : ∀ m n, P.start m = P.start n)
    (hf : ∀ i j q f b, P.fingerprint i q f b = P.fingerprint j q f b) : P.Reproducible :=
  fun m n => ⟨Eq, P.bisimulation_eq, fun h i j f b => h ▸ hf i j _ f b, hs m n⟩

/-- The fingerprint of a place that is reached does not depend on the execution, if the program is
reproducible. -/
lemma Reproducible.twins (hP : P.Reproducible) {l : Place σ} (h : P.Reaches l) :
    P.Twins l.config l.config := by
  induction h with
  | refl => exact hP 0 0
  | tail _ hm ih =>
    cases hm with
    | internal h | print h | effect h =>
      obtain ⟨q, hq, h'⟩ := ih.exists_next h
      obtain rfl : _ = q := by simpa [Move.withConfig] using h.symm.trans hq
      exact h'
    | instruction h | refuse h | choose h =>
      obtain ⟨q, hq, h'⟩ := ih.exists_next h
      obtain rfl : _ = q := by simpa [Move.withConfig] using h.symm.trans hq
      exact h'.reply _

/-! ## Boundaries and the legs between them -/

section Legs

variable (P) (R : Place σ → Bool → Prop)

/-- A place at a boundary, with what comes of making its fingerprint there in some execution: at a
choice, before an instruction where a listener asks for a boundary, or at the end of the program. -/
inductive At : Place σ → Boundary → Except Fault κ → Prop
  | choice {l : Place σ} {n : Int} {q : σ} {i : Nat} {r : Except Fault κ}
      (h : P.next l.config = .choice n q) (hn : 1 ≤ n)
      (hr : P.fingerprint i q l.frame (.choice n.toNat) = r) : At l (.choice n.toNat) r
  | requested {l : Place σ} {step : Instruction} {q : σ} {i : Nat} {r : Except Fault κ}
      (h : P.next l.config = .instruction step q) (hp : l.previous ≠ none) (hR : R l true)
      (hr : P.fingerprint i q (some step.frame) .requested = r) : At l .requested r
  | finished {l : Place σ} {ending : Ending} {q : σ} {i : Nat} {r : Except Fault κ}
      (h : P.next l.config = .ended ending q) (he : ending ≠ .stopped)
      (hi : ∀ type message, ending ≠ .interrupted type message)
      (hr : P.fingerprint i q none .finished = r) : At l .finished r

/-- The execution goes on from a boundary, at a choice with one of its alternatives. -/
inductive Departs : Place σ → Nat → Place σ → Prop
  | choice {l : Place σ} {n : Int} {q : σ} (h : P.next l.config = .choice n q) (a : Nat)
      (ha : (a : Int) < n) : Departs l a (l.choose a (P.reply q (.choose a)))
  | requested {l : Place σ} {i : Instruction} {q : σ} (h : P.next l.config = .instruction i q) :
      Departs l 0 (l.begin i (P.reply q .proceed))

/-- A move between boundaries: it follows no alternative, and no listener asks for a boundary. -/
structure Calm (l m : Place σ) : Prop where
  onward : P.Onward l m
  choices : m.choices = l.choices
  unasked : ∀ i q, P.next l.config = .instruction i q → l.previous ≠ none → R l false

/-- The way from a boundary, with an alternative, to another place before or at the next
boundary. -/
def Leg (l : Place σ) (a : Nat) (m : Place σ) : Prop :=
  ∃ l', P.Departs l a l' ∧ Relation.ReflTransGen (P.Calm R) l' m

variable {P R}

/-- The execution goes on from a boundary by a move of its own. -/
lemma Departs.onward {l m : Place σ} {a : Nat} (h : P.Departs l a m) : P.Onward l m := by
  cases h with
  | choice h a ha => exact .choose h a ha
  | requested h => exact .instruction h

/-- A leg is a part of an execution. -/
lemma Leg.onward {l m : Place σ} {a : Nat} (h : P.Leg R l a m) :
    Relation.ReflTransGen P.Onward l m := by
  obtain ⟨l', hd, hc⟩ := h
  exact .head hd.onward (hc.lift id fun _ _ h => h.onward)

end Legs

end Program

end StateAtlas
