import StateAtlas.Proofs.Program.Execution
import StateAtlas.Proofs.Search.Turn

set_option autoImplicit false

/-!
# Where a search stands among the executions

A search goes back to a choice by executing the program again. This module ties every boundary
on its path, and the execution it is in, to a place of one uninterrupted execution: the place that
follows the same alternatives. The tie survives every move of an undisturbed search.

## Main definitions

* `StateAtlas.Program.Stands` — an execution of the search stands at a place.
* `StateAtlas.Program.Anchors` — a boundary on the path was entered at a place.
* `StateAtlas.Program.Underway` — a place on the way from the last boundary of the path.
* `StateAtlas.Exploration.Grounded` — the path and the current execution are tied to places.
* `StateAtlas.Exploration.Heeds` — what the listeners answered at the places of a run.

## Main results

* `StateAtlas.Exploration.Grounded.turn` — a turn keeps a search grounded.
* `StateAtlas.Exploration.grounded_after` — an undisturbed search of a deterministic program is
  grounded at every moment.

## Design

The answers of the listeners are a relation between places and truth values. The weakest one
relates all of them; a search whose listeners follow a policy is grounded under that policy.
-/

namespace StateAtlas

variable {σ L κ : Type}

/-- The instructions that are announced on the way to a place. -/
def Place.heard (l : Place σ) : List (Instruction × Option Instruction) :=
  l.executed.map fun e => (e.1, some e.2)

lemma Place.heard_begin (l : Place σ) (i : Instruction) (q : σ) :
    (l.begin i q).heard = l.heard ++ (l.previous.map fun e => (e, some i)).toList := by
  cases hp : l.previous <;> simp [Place.heard, Place.begin, hp]

namespace Program

variable (P : Program σ κ)

/-- The instructions that are announced by the time a boundary is reached. The last one is
announced before a boundary that is asked for, and before the end state. -/
def heardAt (l : Place σ) : Boundary → List (Instruction × Option Instruction)
  | .choice _ => l.heard
  | .requested =>
    match P.next l.config with
    | .instruction i q => (l.begin i q).heard
    | _ => l.heard
  | .finished => l.heard ++ (l.previous.map fun e => (e, none)).toList

/-! ## Standing at a place -/

/-- An execution of the search stands at a place. It may show that it is another execution than
the one of the place only if executions begin in different configurations. -/
structure Stands (p : σ) (w : Walk) (l : Place σ) : Prop where
  reaches : P.Reaches l
  alike : P.Alike p l.config
  frame : w.frame = l.frame
  previous : w.previous = l.previous
  same : (∀ m n, P.start m = P.start n) → p = l.config

variable {P} {R : Place σ → Bool → Prop}

section Stands

variable {p q : σ} {w : Walk} {l : Place σ}

/-- An execution that stands at a place and makes a move finds the same move there. -/
lemma Stands.exists_next (h : P.Stands p w l) {m : Move σ} (hm : P.next p = m) :
    ∃ q, P.next l.config = m.withConfig q ∧ P.Alike m.config q ∧
      ((∀ m n, P.start m = P.start n) → m.config = q) := by
  obtain ⟨q, hq, ha⟩ := h.alike.exists_next hm
  refine ⟨q, hq, ha, fun hs => ?_⟩
  rw [← h.same hs, hm] at hq
  exact (congrArg Move.config hq).trans (m.config_withConfig q)

/-- An execution that does something unobserved stands at the next place. -/
lemma Stands.silent (h : P.Stands p w l)
    (hp : P.next p = .internal q ∨ ∃ text, P.next p = .print text q) :
    ∃ q', P.Calm R l { l with config := q' } ∧ P.Stands q w { l with config := q' } := by
  rcases hp with hp | ⟨text, hp⟩
  · obtain ⟨q', hq, ha, hs⟩ := h.exists_next hp
    have ho : P.Onward l { l with config := q' } := .internal hq
    exact ⟨q', ⟨ho, rfl, fun i r hi => by simp [hq, Move.withConfig] at hi⟩,
      ⟨h.reaches.onward ho, ha, h.frame, h.previous, hs⟩⟩
  · obtain ⟨q', hq, ha, hs⟩ := h.exists_next hp
    have ho : P.Onward l { l with config := q' } := .print hq
    exact ⟨q', ⟨ho, rfl, fun i r hi => by simp [hq, Move.withConfig] at hi⟩,
      ⟨h.reaches.onward ho, ha, h.frame, h.previous, hs⟩⟩

/-- An execution that learns something of its last instruction stands at the next place. -/
lemma Stands.effect {e : Effect} (h : P.Stands p w l) (hp : P.next p = .effect e q) :
    ∃ q', let l' := { l with config := q', previous := l.previous.map (·.apply e) }
      P.Calm R l l' ∧ P.Stands q { w with previous := w.previous.map (·.apply e) } l' := by
  obtain ⟨q', hq, ha, hs⟩ := h.exists_next hp
  have ho := Onward.effect hq
  exact ⟨q', ⟨ho, rfl, fun i r hi => by simp [hq, Move.withConfig] at hi⟩,
    ⟨h.reaches.onward ho, ha, h.frame, by rw [h.previous], hs⟩⟩

/-- An execution that is refused a choice stands at the next place. -/
lemma Stands.refuse {n : Int} (h : P.Stands p w l) (hp : P.next p = .choice n q) (hn : n < 1) :
    ∃ q', P.Calm R l { l with config := q' } ∧
      P.Stands (P.reply q (.refuse n)) w { l with config := q' } := by
  obtain ⟨q', hq, ha, hs⟩ := h.exists_next hp
  have ho : P.Onward l { l with config := P.reply q' (.refuse n) } := .refuse hq hn
  exact ⟨_, ⟨ho, rfl, fun i r hi => by simp [hq, Move.withConfig] at hi⟩,
    ⟨h.reaches.onward ho, ha.reply _, h.frame, h.previous, fun h => congrArg (P.reply · _) (hs h)⟩⟩

/-- An execution before an instruction stands at a place before it, and proceeds to a place after
it has begun. -/
lemma Stands.instruction {i : Instruction} (h : P.Stands p w l)
    (hp : P.next p = .instruction i q) :
    ∃ q', P.next l.config = .instruction i q' ∧ P.Alike q q' ∧
      P.Stands (P.reply q .proceed) { w with frame := some i.frame, previous := some i }
        (l.begin i (P.reply q' .proceed)) := by
  obtain ⟨q', hq, ha, hs⟩ := h.exists_next hp
  exact ⟨q', hq, ha, ⟨h.reaches.onward (.instruction hq), ha.reply _, rfl, rfl,
    fun h => congrArg (P.reply · _) (hs h)⟩⟩

/-- An execution at a choice stands at a place with this choice, and follows an alternative to the
place after it. -/
lemma Stands.choice {n : Int} (h : P.Stands p w l) (hp : P.next p = .choice n q) :
    ∃ q', P.next l.config = .choice n q' ∧ P.Alike q q' ∧
      ∀ a : Nat, (a : Int) < n →
        P.Stands (P.reply q (.choose a)) w (l.choose a (P.reply q' (.choose a))) := by
  obtain ⟨q', hq, ha, hs⟩ := h.exists_next hp
  exact ⟨q', hq, ha, fun a hn => ⟨h.reaches.onward (.choose hq a hn), ha.reply _, h.frame,
    h.previous, fun h => congrArg (P.reply · _) (hs h)⟩⟩

/-- Where an execution stands depends on its last instruction alone. -/
lemma Stands.of_walk {w' : Walk} (h : P.Stands p w l) (hf : w'.frame = w.frame)
    (hp : w'.previous = w.previous) : P.Stands p w' l :=
  ⟨h.reaches, h.alike, hf.trans h.frame, hp.trans h.previous, h.same⟩

end Stands

/-! ## Boundaries on the path -/

variable (P R)

/-- A boundary on the path was entered at a place: the place has its fingerprint, its number of
alternatives, and the choices and the instructions of the path up to it. -/
structure Anchors (seen : Array κ) (e : PathEntry) (below : List PathEntry)
    (legs : List (List (Instruction × Option Instruction))) (l : Place σ) (b : Boundary) :
    Prop where
  reaches : P.Reaches l
  boundary : ∃ k, P.At R l b (.ok k) ∧ seen[e.state]? = some k
  options : e.options = b.options
  choice : e.choice < max e.options 1
  choices : l.choices = PathEntry.choices below
  heard : legs.reverse.flatten = P.heardAt l b

/-- Every boundary on a path was entered at some place. -/
inductive Anchored (seen : Array κ) :
    List PathEntry → List (List (Instruction × Option Instruction)) → Prop
  | nil : Anchored seen [] []
  | cons {e : PathEntry} {below : List PathEntry} {leg : List (Instruction × Option Instruction)}
      {legs : List (List (Instruction × Option Instruction))} {l : Place σ} {b : Boundary}
      (h : Anchored seen below legs) (ha : P.Anchors R seen e below (leg :: legs) l b) :
      Anchored seen (e :: below) (leg :: legs)

/-- A place on the way from the last boundary of the path, or from the start of the program. -/
def Underway (seen : Array κ) (path : List PathEntry)
    (legs : List (List (Instruction × Option Instruction))) (m : Place σ) : Prop :=
  match path with
  | [] => Relation.ReflTransGen (P.Calm R) (P.startPlace 0) m
  | e :: below => ∃ l b, P.Anchors R seen e below legs l b ∧ P.Leg R l e.choice m

variable {P R}

/-- A boundary stays tied to its place while fingerprints are added. -/
lemma Anchors.mono {seen seen' : Array κ} {e : PathEntry} {below : List PathEntry}
    {legs : List (List (Instruction × Option Instruction))} {l : Place σ} {b : Boundary}
    (h : P.Anchors R seen e below legs l b)
    (hs : ∀ {i : Nat} {k : κ}, seen[i]? = some k → seen'[i]? = some k) :
    P.Anchors R seen' e below legs l b := by
  obtain ⟨k, hk, hi⟩ := h.boundary
  exact { h with boundary := ⟨k, hk, hs hi⟩ }

/-- The boundaries on a path stay tied to their places while fingerprints are added. -/
lemma Anchored.mono {seen seen' : Array κ} {path : List PathEntry}
    {legs : List (List (Instruction × Option Instruction))} (h : P.Anchored R seen path legs)
    (hs : ∀ {i : Nat} {k : κ}, seen[i]? = some k → seen'[i]? = some k) :
    P.Anchored R seen' path legs := by
  induction h with
  | nil => exact .nil
  | cons _ ha ih => exact .cons ih (ha.mono hs)

/-- A boundary with alternatives is a choice. -/
lemma Anchors.eq_choice {seen : Array κ} {e : PathEntry} {below : List PathEntry}
    {legs : List (List (Instruction × Option Instruction))} {l : Place σ} {b : Boundary}
    (h : P.Anchors R seen e below legs l b) (he : e.options ≠ 0) : b = .choice e.options := by
  have ho := h.options
  cases b with
  | choice n => rw [ho]; rfl
  | requested => exact absurd ho he
  | finished => exact absurd ho he

/-- The place at which a choice on the path was entered is at this choice. -/
lemma Anchors.next_eq {seen : Array κ} {e : PathEntry} {below : List PathEntry}
    {legs : List (List (Instruction × Option Instruction))} {l : Place σ}
    (h : P.Anchors R seen e below legs l (.choice e.options)) :
    ∃ (n : Int) (q : σ), P.next l.config = .choice n q ∧ 1 ≤ n ∧ n.toNat = e.options ∧
      ∃ i k, P.fingerprint i q l.frame (.choice e.options) = .ok k ∧
        seen[e.state]? = some k := by
  obtain ⟨k, hk, hi⟩ := h.boundary
  generalize hb : Boundary.choice e.options = b at hk
  cases hk with
  | @choice n q i _ hq hn hr =>
    obtain hn' : e.options = n.toNat := by simpa using hb
    exact ⟨n, q, hq, hn, hn'.symm, i, k, hn' ▸ hr, hi⟩
  | requested => simp at hb
  | finished => simp at hb

/-- A calm move leads on along the way from the last boundary. -/
lemma Underway.calm {seen : Array κ} {path : List PathEntry}
    {legs : List (List (Instruction × Option Instruction))} {m m' : Place σ}
    (h : P.Underway R seen path legs m) (hc : P.Calm R m m') :
    P.Underway R seen path legs m' := by
  cases path with
  | nil => exact Relation.ReflTransGen.tail h hc
  | cons e below =>
    obtain ⟨l, b, ha, l', hd, hl⟩ := h
    exact ⟨l, b, ha, l', hd, hl.tail hc⟩

end Program

namespace Exploration

open Program

variable (P : Program σ κ) (R : Place σ → Bool → Prop)

/-! ## Grounded searches -/

/-- How the place of the current execution is tied to the path, at each stage. The instructions
heard since the last boundary are `leg`, those heard on the legs before it `legs`. -/
inductive Situated (s : Search (L × Log) κ) (leg : List (Instruction × Option Instruction))
    (legs : List (List (Instruction × Option Instruction))) : Stage σ → Prop
  | waiting (hp : s.path = []) (hl : leg = []) : Situated s leg legs .waiting
  | launching (hl : leg = [])
      (hp : s.path = [] ∨ ∃ e below, s.path = e :: below ∧ e.options ≠ 0) :
      Situated s leg legs .launching
  | underway {p : σ} {w : Walk} {l : Place σ} (hw : w.stopping = false) (hr : w.replay = [])
      (hs : P.Stands p w l) (hc : l.choices = PathEntry.choices s.path)
      (hh : (leg :: legs).reverse.flatten = l.heard) (hu : P.Underway R s.seen s.path legs l) :
      Situated s leg legs (.executing p w)
  /-- The execution is on its way to the place of the last boundary, a choice. -/
  | repeating {p : σ} {w : Walk} {e : PathEntry} {below : List PathEntry} {l m : Place σ}
      (hw : w.stopping = false) (hr : w.replay ≠ []) (hl : leg = []) (hp : s.path = e :: below)
      (ha : P.Anchors R s.seen e below legs l (.choice e.options)) (hs : P.Stands p w m)
      (hm : Relation.ReflTransGen P.Onward m l)
      (hc : m.choices ++ w.replay = l.choices ++ [e.choice]) :
      Situated s leg legs (.executing p w)
  | stopping {p : σ} {w : Walk} (hw : w.stopping = true) (hl : leg = []) (hp : s.path ≠ []) :
      Situated s leg legs (.executing p w)
  | ended {e : Exit} : Situated s leg legs (.ended e)

/-- The path and the current execution of a search are tied to places. -/
def Grounded (s : Search (L × Log) κ) (stage : Stage σ) : Prop :=
  ∃ leg legs, Log.legs s.listeners.2 = leg :: legs ∧ P.Anchored R s.seen s.path legs ∧
    Situated P R s leg legs stage

variable {P R} {A : Audience L}

/-- Going back leaves boundaries of the path, and stops at a choice if it is to be resumed.

**Proof sketch.** Induction on the retreats. The notice of a retreat drops the leg to the boundary
left and the leg after it, as the path drops the boundary. -/
lemma retreats_anchored {s t : Search (L × Log) κ} {r : Retreat}
    (h : s.Retreats A.recorded t r) :
    ∀ {leg legs}, Log.legs s.listeners.2 = leg :: legs → P.Anchored R s.seen s.path legs →
      ∃ leg' legs', Log.legs t.listeners.2 = leg' :: legs' ∧ P.Anchored R t.seen t.path legs' ∧
        (r = .resume → leg' = [] ∧ ∃ e below, t.path = e :: below ∧ e.options ≠ 0) := by
  induction h with
  | idle => exact fun hl ha => ⟨_, _, hl, ha, by simp⟩
  | @last s e h =>
    intro leg legs hl ha
    rw [h] at ha
    cases ha with
    | cons ha _ =>
      exact ⟨[], _, by rw [Search.popped_log, Log.legs_backtracked hl], ha, by simp⟩
  | @resume s e e' below h hm =>
    intro leg legs hl ha
    rw [h] at ha
    cases ha with
    | cons ha _ =>
      cases ha with
      | @cons _ _ leg' legs' l b ha hb =>
        have hm : e'.choice + 1 < e'.options := by simpa [PathEntry.hasMore] using hm
        have hb : P.Anchors R s.seen e'.nextChoice below (leg' :: legs') l b :=
          { hb with choice := Nat.lt_of_lt_of_le hm (Nat.le_max_left _ _) }
        refine ⟨[], leg' :: legs', ?_, .cons ha hb, fun _ => ⟨rfl, _, _, rfl, ?_⟩⟩
        · change Log.legs (s.popped A.recorded (e' :: below)).listeners.2 = _
          rw [Search.popped_log, Log.legs_backtracked hl]
        · simp only [PathEntry.nextChoice]
          omega
  | @further s t e e' below r h hm h' ih =>
    intro leg legs hl ha
    rw [h] at ha
    cases ha with
    | cons ha _ =>
      exact ih (by rw [Search.popped_log, Log.legs_backtracked hl]) ha

/-- A search that leaves a path is grounded again. -/
lemma leaves_grounded {s t : Search (L × Log) κ} {stage : Stage σ}
    (h : Leaves A.recorded s t stage) {leg legs}
    (hl : Log.legs s.listeners.2 = leg :: legs) (ha : P.Anchored R s.seen s.path legs) :
    Grounded P R t stage := by
  cases h with
  | resume h =>
    obtain ⟨leg', legs', hl', ha', hr⟩ := retreats_anchored h hl ha
    obtain ⟨hnil, hp⟩ := hr rfl
    exact ⟨leg', legs', hl', ha', .launching hnil (.inr hp)⟩
  | done h =>
    obtain ⟨leg', legs', hl', ha', -⟩ := retreats_anchored h hl ha
    refine ⟨leg', legs', ?_, ha', .ended⟩
    rw [Search.told_log, Log.legs_idle rfl, hl']

/-- An execution begins at the start of the program, on its way to the last choice of the path. -/
lemma grounded_launch (hP : P.Deterministic) {s : Search (L × Log) κ}
    (h : Grounded P R s .launching) :
    Grounded P R s.unasked (.executing (P.start s.paths) (newWalk s)) := by
  obtain ⟨leg, legs, hl, ha, hsit⟩ := h
  have hs : ∀ w : Walk, w.frame = none → w.previous = none →
      P.Stands (P.start s.paths) w (P.startPlace 0) := fun w hf hp =>
    ⟨.refl, hP s.paths 0, hf, hp, fun h => h _ _⟩
  cases hsit with
  | launching hnil hp =>
    subst hnil
    refine ⟨[], legs, hl, ha, ?_⟩
    rcases hp with hp | ⟨e, below, hp, he⟩
    · rw [hp] at ha
      cases ha with
      | nil =>
        refine .underway rfl ?_ (hs _ rfl rfl) ?_ rfl ?_
        · simp [newWalk, Search.replay_eq, hp, PathEntry.choices]
        · simp [hp, PathEntry.choices, startPlace]
        · simp only [Search.unasked_path, hp]
          exact .refl
    · rw [hp] at ha
      cases ha with
      | @cons _ _ leg legs l b ha hb =>
        obtain rfl := hb.eq_choice he
        have hrep : (newWalk s).replay = PathEntry.choices below ++ [e.choice] := by
          simp [newWalk, Search.replay_eq, hp, PathEntry.choices, he]
        refine .repeating rfl (by simp [hrep]) rfl hp hb (hs _ rfl rfl) hb.reaches ?_
        rw [hrep, hb.choices]
        rfl

/-- An execution at the last choice of the path has repeated all choices: it stands at the place
where this choice was entered.

**Proof sketch.** A single choice is left to be repeated, so the place has the same choices as
the place it is on its way to. It is at a choice itself, so it is the same place. -/
lemma stands_of_repeated {s : Search (L × Log) κ} {p q : σ} {w : Walk} {n : Int} {c : Nat}
    {leg legs} (hsit : Situated P R s leg legs (.executing p w)) (hw : w.stopping = false)
    (hr : w.replay = [c]) (hn : P.next p = .choice n q) (hpos : 1 ≤ n) :
    leg = [] ∧ ∃ e below l, s.path = e :: below ∧ e.choice = c ∧ e.options = n.toNat ∧
      P.Anchors R s.seen e below legs l (.choice e.options) ∧ P.Stands p w l := by
  cases hsit with
  | underway _ hr' => simp [hr] at hr'
  | stopping hw' => simp [hw] at hw'
  | @repeating _ _ e below l m _ _ hleg hp ha hs hm hc =>
    rw [hr] at hc
    obtain ⟨hml, hce⟩ := List.append_inj hc (by simpa using congrArg List.length hc)
    obtain ⟨q', hq', -, -⟩ := hs.choice hn
    obtain ⟨n', q'', hq'', hpos', hn', -⟩ := ha.next_eq
    obtain rfl : m = l := ha.reaches.eq_of_choices hs.reaches hml hq'' hpos' hq' hpos
    rw [hq', Move.choice.injEq] at hq''
    refine ⟨hleg, e, below, m, hp, ?_, ?_, ha, hs⟩
    · simpa using hce.symm
    · rw [← hn', hq''.1]

/-- An execution that repeats choices stays on its way to the last boundary with every move that
follows no alternative. -/
lemma grounded_repeat {s : Search (L × Log) κ} {p p' : σ} {w w' : Walk}
    (h : Grounded P R s (.executing p w)) (hw : w.stopping = false) (hr : w.replay ≠ [])
    (hw' : w'.stopping = w.stopping) (hr' : w'.replay = w.replay)
    (hstep : ∀ l : Place σ, P.Stands p w l → ∃ l' : Place σ,
      P.Onward l l' ∧ l'.choices = l.choices ∧ P.Stands p' w' l') :
    Grounded P R s (.executing p' w') := by
  obtain ⟨leg, legs, hl, ha, hsit⟩ := h
  cases hsit with
  | stopping hw₂ => simp [hw] at hw₂
  | underway _ hr₂ => exact absurd hr₂ hr
  | @repeating _ _ e below l m _ _ hleg hp hb hs hm hc =>
    obtain ⟨m', ho, hch, hs'⟩ := hstep m hs
    obtain ⟨n, q, hq, hpos, -, -⟩ := hb.next_eq
    have hpre : m'.choices <+: l.choices := hch ▸ choices_prefix_of_onward hm
    refine ⟨leg, legs, hl, ha, .repeating (hw'.trans hw) (hr' ▸ hr) hleg hp hb hs'
      (ho.toward hm hpre hq hpos) ?_⟩
    rw [hch, hr', hc]

/-- On the way to a place, a choice that is not the last one to be repeated takes the alternative
that is repeated.

**Proof sketch.** The way goes on, because choices are left. Its next move takes an alternative,
and the choices of the place begin with the choices after this move. -/
lemma toward_choose {l m : Place σ} {q : σ} {n : Int} {c last : Nat} {rest : List Nat}
    (hm : Relation.ReflTransGen P.Onward m l) (hq : P.next m.config = .choice n q) (hn : 1 ≤ n)
    (hc : m.choices ++ c :: rest = l.choices ++ [last]) (hrest : rest ≠ []) :
    (c : Int) < n ∧ Relation.ReflTransGen P.Onward (m.choose c (P.reply q (.choose c))) l := by
  rcases hm.cases_head with rfl | ⟨m', ho, hm'⟩
  · simp [hrest] at hc
  · cases ho with
    | @choose n' q' hq' a hlt =>
      obtain ⟨rfl, rfl⟩ : n = n' ∧ q = q' := by simpa [hq] using hq'
      obtain rfl : a = c := by
        obtain ⟨later, hlater⟩ := choices_prefix_of_onward hm'
        have hca : m.choices ++ c :: rest = m.choices ++ a :: (later ++ [last]) := by
          rw [hc, ← hlater]
          simp [Place.choose]
        simpa using (List.cons.inj (List.append_cancel_left hca)).1.symm
      exact ⟨hlt, hm'⟩
    | refuse h hlt =>
      rw [hq, Move.choice.injEq] at h
      omega
    | _ => simp_all

/-- An execution that repeats a choice stays on its way to the last boundary while choices are
left. -/
lemma grounded_repeatChoice {s : Search (L × Log) κ} {p q : σ} {w : Walk} {n : Int} {c : Nat}
    {rest : List Nat} (h : Grounded P R s (.executing p w)) (hw : w.stopping = false)
    (hr : w.replay = c :: rest) (hrest : rest ≠ []) (hp : P.next p = .choice n q) (hn : 1 ≤ n) :
    Grounded P R s (.executing (P.reply q (.choose c)) { w with replay := rest }) := by
  obtain ⟨leg, legs, hl, ha, hsit⟩ := h
  cases hsit with
  | stopping hw₂ => simp [hw] at hw₂
  | underway _ hr₂ => simp [hr] at hr₂
  | @repeating _ _ e below l m _ _ hleg hpath hb hs hm hc =>
    rw [hr] at hc
    obtain ⟨q', hq', -, hs'⟩ := hs.choice hp
    obtain ⟨hlt, hm'⟩ := toward_choose hm hq' hn hc hrest
    refine ⟨leg, legs, hl, ha, .repeating hw hrest hleg hpath hb ((hs' c hlt).of_walk rfl rfl)
      hm' ?_⟩
    simpa [Place.choose] using hc

/-- An execution that repeats its last choice departs from the last boundary with it. -/
lemma grounded_restore {s : Search (L × Log) κ} {p q : σ} {w : Walk} {n : Int} {c : Nat}
    (h : Grounded P R s (.executing p w)) (hw : w.stopping = false) (hr : w.replay = [c])
    (hp : P.next p = .choice n q) (hn : 1 ≤ n) :
    Grounded P R (s.told A.recorded (P.scene q) w.frame .restored)
      (.executing (P.reply q (.choose c)) { w with replay := [] }) := by
  obtain ⟨leg, legs, hl, ha, hsit⟩ := h
  obtain ⟨rfl, e, below, l, hpath, rfl, ho, hb, hs⟩ := stands_of_repeated hsit hw hr hp hn
  obtain ⟨q', hq', -, hs'⟩ := hs.choice hp
  have hlt : (e.choice : Int) < n := by
    have := hb.choice
    omega
  refine ⟨[], legs, ?_, ha, .underway hw rfl ((hs' _ hlt).of_walk rfl rfl) ?_ ?_ ?_⟩
  · rw [Search.told_log, Log.legs_idle rfl, hl]
  · have he : e.options ≠ 0 := by omega
    simp [hpath, PathEntry.choices, he, Place.choose, hb.choices]
  · simpa [heardAt, Place.heard, Place.choose] using hb.heard
  · rw [Search.told_path, Search.told_seen, hpath]
    exact ⟨l, _, hb, _, .choice hq' _ hlt, .refl⟩

/-- An execution stays underway, or on its way to the last boundary, with every calm move. -/
lemma grounded_calm {s : Search (L × Log) κ} {p p' : σ} {w w' : Walk}
    (h : Grounded P R s (.executing p w)) (hw : w.stopping = false)
    (hw' : w'.stopping = w.stopping) (hr' : w'.replay = w.replay)
    (hstep : ∀ l : Place σ, P.Stands p w l → ∃ l' : Place σ,
      P.Calm R l l' ∧ l'.executed = l.executed ∧ P.Stands p' w' l') :
    Grounded P R s (.executing p' w') := by
  by_cases hr : w.replay = []
  · obtain ⟨leg, legs, hl, ha, hsit⟩ := h
    cases hsit with
    | stopping hw₂ => simp [hw] at hw₂
    | repeating _ hr₂ => exact absurd hr hr₂
    | @underway _ _ l _ _ hs hc hh hu =>
      obtain ⟨l', hcalm, hex, hs'⟩ := hstep l hs
      refine ⟨leg, legs, hl, ha, .underway (hw'.trans hw) (hr'.trans hr) hs'
        (hcalm.choices.trans hc) ?_ (hu.calm hcalm)⟩
      rw [hh, Place.heard, Place.heard, hex]
  · refine grounded_repeat h hw hr hw' hr' fun l hs => ?_
    obtain ⟨l', hcalm, -, hs'⟩ := hstep l hs
    exact ⟨l', hcalm.onward, hcalm.choices, hs'⟩

/-- An execution that is not stopped and repeats nothing is between two boundaries. -/
lemma Situated.exists_underway {s : Search (L × Log) κ} {p : σ} {w : Walk} {leg legs}
    (h : Situated P R s leg legs (.executing p w)) (hw : w.stopping = false)
    (hr : w.replay = []) :
    ∃ l, P.Stands p w l ∧ l.choices = PathEntry.choices s.path ∧
      (leg :: legs).reverse.flatten = l.heard ∧ P.Underway R s.seen s.path legs l := by
  cases h with
  | stopping hw' => simp [hw] at hw'
  | repeating _ hr' => exact absurd hr hr'
  | underway _ _ hs hc hh hu => exact ⟨_, hs, hc, hh, hu⟩

variable (P R A) in
/-- The answer of the listeners to an instruction, at a place where the execution stands. -/
def HeedsAt (s : Search (L × Log) κ) (stage : Stage σ) : Prop :=
  ∀ {p q : σ} {w : Walk} {i : Instruction} {l : Place σ}, stage = .executing p w →
    w.stopping = false → w.replay = [] → P.next p = .instruction i q → w.previous ≠ none →
    P.Stands p w l → l.choices = PathEntry.choices s.path →
    R l (asks A.recorded s (P.scene q) (some i.frame) w.previous (some i))

/-- An execution before an instruction where a listener asks for a boundary stands at a requested
boundary. -/
lemma requested_at {s : Search (L × Log) κ} {p q : σ} {w : Walk} {i : Instruction} {l : Place σ}
    {leg legs} {k : κ} (hR : HeedsAt P R A s (.executing p w)) (hw : w.stopping = false)
    (hr : w.replay = []) (hp : P.next p = .instruction i q)
    (hask : asks A.recorded s (P.scene q) (some i.frame) w.previous (some i) = true)
    (hs : P.Stands p w l) (hc : l.choices = PathEntry.choices s.path)
    (hh : (leg :: legs).reverse.flatten = l.heard)
    (hk : P.fingerprint w.execution q (some i.frame) .requested = .ok k) :
    ∃ q', P.next l.config = .instruction i q' ∧ P.At R l .requested (.ok k) ∧
      ((leg ++ (w.previous.map fun e => (e, some i)).toList) :: legs).reverse.flatten =
        P.heardAt l .requested ∧
      P.Stands (P.reply q .proceed) { w with frame := some i.frame, previous := some i }
        (l.begin i (P.reply q' .proceed)) := by
  obtain ⟨q', hq', ha, hs'⟩ := hs.instruction hp
  have hprev : w.previous ≠ none := by
    rintro hnone
    simp [asks, hnone] at hask
  refine ⟨q', hq', ?_, ?_, hs'⟩
  · exact .requested hq' (hs.previous ▸ hprev) (hask ▸ hR rfl hw hr hp hprev hs hc)
      ((ha.fingerprint _ _ _).symm.trans hk)
  · rw [heardAt, hq']
    simp only
    rw [Place.heard_begin, ← hs.previous, ← hh]
    simp

/-- An execution at a choice stands at the boundary of this choice. -/
lemma choice_at {p q : σ} {w : Walk} {n : Int} {l : Place σ} {k : κ} (hs : P.Stands p w l)
    (hp : P.next p = .choice n q) (hn : 1 ≤ n)
    (hk : P.fingerprint w.execution q w.frame (.choice n.toNat) = .ok k) :
    ∃ q', P.next l.config = .choice n q' ∧ (∀ R, P.At R l (.choice n.toNat) (.ok k)) ∧
      ∀ a : Nat, (a : Int) < n →
        P.Stands (P.reply q (.choose a)) w (l.choose a (P.reply q' (.choose a))) := by
  obtain ⟨q', hq', ha, hs'⟩ := hs.choice hp
  refine ⟨q', hq', fun R => .choice hq' hn (i := w.execution) ?_, hs'⟩
  rw [← ha.fingerprint, ← hs.frame, hk]

/-- An execution at the end of the program stands at an end state. -/
lemma finished_at {p q : σ} {w : Walk} {ending : Ending} {l : Place σ} {leg legs} {k : κ}
    (hs : P.Stands p w l) (hp : P.next p = .ended ending q) (he : ending ≠ .stopped)
    (hi : ∀ type message, ending ≠ .interrupted type message)
    (hh : (leg :: legs).reverse.flatten = l.heard)
    (hk : P.fingerprint w.execution q none .finished = .ok k) :
    (∀ R, P.At R l .finished (.ok k)) ∧
      ((leg ++ (w.previous.map fun e => (e, none)).toList) :: legs).reverse.flatten =
        P.heardAt l .finished := by
  obtain ⟨q', hq', ha⟩ := hs.alike.exists_next hp
  refine ⟨fun R => .finished hq' he hi ((ha.fingerprint _ _ _).symm.trans hk), ?_⟩
  rw [heardAt, ← hs.previous, ← hh]
  simp

/-- An execution that begins an instruction before which nobody asks for a boundary is underway
from the same boundary. -/
lemma grounded_instruct {s : Search (L × Log) κ} {p q : σ} {w : Walk} {i : Instruction}
    (hR : HeedsAt P R A s (.executing p w)) (h : Grounded P R s (.executing p w))
    (hw : w.stopping = false) (hr : w.replay = []) (hp : P.next p = .instruction i q)
    (hask : asks A.recorded s (P.scene q) (some i.frame) w.previous (some i) = false) :
    Grounded P R
      ((concluded A.recorded s (P.scene q) (some i.frame) w.previous (some i)).told A.recorded
        (P.scene q) (some i.frame) (.executing i))
      (.executing (P.reply q .proceed) { w with frame := some i.frame, previous := some i }) := by
  obtain ⟨leg, legs, hl, ha, hsit⟩ := h
  obtain ⟨l, hs, hc, hh, hu⟩ := hsit.exists_underway hw hr
  obtain ⟨q', hq', -, hs'⟩ := hs.instruction hp
  have hcalm : P.Calm R l (l.begin i (P.reply q' .proceed)) :=
    ⟨.instruction hq', rfl, fun _ _ _ hprev =>
      hask ▸ hR rfl hw hr hp (hs.previous ▸ hprev) hs hc⟩
  refine ⟨leg ++ (w.previous.map fun e => (e, some i)).toList, legs, ?_, ?_,
    .underway hw hr hs' ?_ ?_ ?_⟩
  · rw [Search.told_log, Log.legs_idle rfl, concluded_legs hl]
  · simpa using ha
  · simpa [Place.begin] using hc
  · rw [Place.heard_begin, ← hs.previous, ← hh]
    simp
  · simpa using hu.calm hcalm

section Boundaries

variable {s : Search (L × Log) κ} {p q : σ} {w : Walk} {k : κ}
  (h : Grounded P R s (.executing p w)) (hw : w.stopping = false) (hr : w.replay = [])

include h hw hr

/-- A grounded search that reaches a requested boundary has come to a place at it. -/
lemma Grounded.exists_requested {i : Instruction} (hR : HeedsAt P R A s (.executing p w))
    (hp : P.next p = .instruction i q)
    (hask : asks A.recorded s (P.scene q) (some i.frame) w.previous (some i) = true)
    (hk : P.fingerprint w.execution q (some i.frame) .requested = .ok k) :
    ∃ l legs, P.Reaches l ∧ P.At R l .requested (.ok k) ∧
      P.Underway R s.seen s.path legs l := by
  obtain ⟨leg, legs, -, -, hsit⟩ := h
  obtain ⟨l, hs, hc, hh, hu⟩ := hsit.exists_underway hw hr
  obtain ⟨-, -, hb, -, -⟩ := requested_at hR hw hr hp hask hs hc hh hk
  exact ⟨l, legs, hs.reaches, hb, hu⟩

/-- A grounded search that reaches a choice has come to a place at it. -/
lemma Grounded.exists_choice {n : Int} (hp : P.next p = .choice n q) (hn : 1 ≤ n)
    (hk : P.fingerprint w.execution q w.frame (.choice n.toNat) = .ok k) :
    ∃ l legs, P.Reaches l ∧ P.At R l (.choice n.toNat) (.ok k) ∧
      P.Underway R s.seen s.path legs l := by
  obtain ⟨leg, legs, -, -, hsit⟩ := h
  obtain ⟨l, hs, -, -, hu⟩ := hsit.exists_underway hw hr
  obtain ⟨-, -, hb, -⟩ := choice_at hs hp hn hk
  exact ⟨l, legs, hs.reaches, hb R, hu⟩

/-- A grounded search that reaches the end of the program has come to a place at an end state. -/
lemma Grounded.exists_finished {ending : Ending} (hp : P.next p = .ended ending q)
    (he : ending ≠ .stopped) (hi : ∀ type message, ending ≠ .interrupted type message)
    (hk : P.fingerprint w.execution q none .finished = .ok k) :
    ∃ l legs, P.Reaches l ∧ P.At R l .finished (.ok k) ∧
      P.Underway R s.seen s.path legs l := by
  obtain ⟨leg, legs, -, -, hsit⟩ := h
  obtain ⟨l, hs, -, hh, hu⟩ := hsit.exists_underway hw hr
  exact ⟨l, legs, hs.reaches, (finished_at hs hp he hi hh hk).1 R, hu⟩

end Boundaries

section Turns

variable [DecidableEq κ]

/-- A boundary that is entered from a place at it is tied to this place. -/
lemma anchors_enter {s : Search L κ} {l : Place σ} {b : Boundary} {key : κ}
    {legs : List (List (Instruction × Option Instruction))} (hl : P.Reaches l)
    (hb : P.At R l b (.ok key)) (hc : l.choices = PathEntry.choices s.path)
    (hh : legs.reverse.flatten = P.heardAt l b) :
    P.Anchors R (s.seenAfter key) ⟨s.identify key, b.options, 0⟩ s.path legs l b where
  reaches := hl
  boundary := ⟨key, hb, Search.getElem?_seenAfter_identify⟩
  options := rfl
  choice := Nat.lt_of_lt_of_le Nat.zero_lt_one (Nat.le_max_right _ _)
  choices := hc
  heard := hh

/-- The search after a boundary from which the path goes on. -/
lemma grounded_onward {s s' : Search (L × Log) κ} {b : Boundary} {key : κ} {l : Place σ}
    {legs legs' : List (List (Instruction × Option Instruction))} {p : σ} {w : Walk}
    {m : Place σ} (ha : P.Anchored R s.seen s.path legs) {leg} (hl : legs' = leg :: legs)
    (hb : P.Anchors R (s.seenAfter key) ⟨s.identify key, b.options, 0⟩ s.path legs' l b)
    (hpath : s'.path = ⟨s.identify key, b.options, 0⟩ :: s.path)
    (hseen : s'.seen = s.seenAfter key) (hlegs : Log.legs s'.listeners.2 = [] :: legs')
    (hw : w.stopping = false) (hr : w.replay = []) (hs : P.Stands p w m)
    (hd : P.Departs l 0 m) (hc : m.choices = PathEntry.choices s'.path)
    (hh : m.heard = legs'.reverse.flatten) :
    Grounded P R s' (.executing p w) := by
  subst hl
  refine ⟨[], _, hlegs, ?_, .underway hw hr hs hc ?_ ?_⟩
  · rw [hpath, hseen]
    exact .cons (ha.mono Search.getElem?_seenAfter) hb
  · rw [hh]
    simp
  · rw [hpath, hseen]
    exact ⟨l, b, hb, m, hd, .refl⟩

/-- The search after a boundary at which the path has halted. -/
lemma grounded_halt {s s' : Search (L × Log) κ} {scene : Scene} {top : Option FrameId}
    {b : Boundary} {key : κ} {l : Place σ} {leg} {legs} {p : σ} {w : Walk}
    (hlegs : Log.legs s.listeners.2 = leg :: legs) (ha : P.Anchored R s.seen s.path legs)
    (hb : P.Anchors R (s.seenAfter key) ⟨s.identify key, b.options, 0⟩ s.path (leg :: legs) l b)
    (hh : s.Halts A.recorded scene top b key s') (hw : w.stopping = true) :
    Grounded P R s' (.executing p w) := by
  refine ⟨[], leg :: legs, ?_, ?_, .stopping hw rfl ?_⟩
  · rw [hh.reading Log.legs fun _ _ => Log.legs_idle rfl _ _, Search.arrival, Log.legs_advanced,
      hlegs]
  · rw [hh.path_eq, hh.seen_eq]
    exact .cons (ha.mono Search.getElem?_seenAfter) hb
  · rw [hh.path_eq]
    simp

/-- An execution that goes on from a requested boundary is underway from it. -/
lemma grounded_request {s : Search (L × Log) κ} {p q : σ} {w : Walk} {i : Instruction} {k : κ}
    (hR : HeedsAt P R A s (.executing p w)) (h : Grounded P R s (.executing p w))
    (hw : w.stopping = false) (hr : w.replay = []) (hp : P.next p = .instruction i q)
    (hask : asks A.recorded s (P.scene q) (some i.frame) w.previous (some i) = true)
    (hk : P.fingerprint w.execution q (some i.frame) .requested = .ok k) :
    Grounded P R
      (((concluded A.recorded s (P.scene q) (some i.frame) w.previous (some i)).unasked.entered
        A.recorded (P.scene q) (some i.frame) .requested k).told A.recorded (P.scene q)
        (some i.frame) (.executing i))
      (.executing (P.reply q .proceed) { w with frame := some i.frame, previous := some i }) := by
  obtain ⟨leg, legs, hl, ha, hsit⟩ := h
  obtain ⟨l, hs, hc, hh, hu⟩ := hsit.exists_underway hw hr
  obtain ⟨q', hq', hb, hheard, hs'⟩ := requested_at hR hw hr hp hask hs hc hh hk
  have hl' := concluded_legs (A := A) hl (P.scene q) (some i.frame) w.previous (some i)
  refine grounded_onward (s := (concluded A.recorded s (P.scene q) (some i.frame) w.previous
    (some i)).unasked) (by simpa using ha) rfl
    (anchors_enter hs.reaches hb (by simpa using hc) hheard) (by simp) (by simp) ?_ hw hr hs'
    (.requested hq') ?_ ?_
  · rw [Search.told_log, Log.legs_idle rfl, Search.entered_log, Search.arrival,
      Log.legs_advanced, Search.unasked_listeners, hl']
  · simpa [PathEntry.choices, Boundary.options, Place.begin] using hc
  · rw [hheard, heardAt, hq']
    rfl

/-- A path that halts at a requested boundary ends in it. -/
lemma grounded_requestHalt {s s' : Search (L × Log) κ} {p q r : σ} {w w' : Walk}
    {i : Instruction} {k : κ} (hR : HeedsAt P R A s (.executing p w))
    (h : Grounded P R s (.executing p w)) (hw : w.stopping = false) (hr : w.replay = [])
    (hp : P.next p = .instruction i q)
    (hask : asks A.recorded s (P.scene q) (some i.frame) w.previous (some i) = true)
    (hhalt : (concluded A.recorded s (P.scene q) (some i.frame) w.previous (some i)).unasked.Halts
      A.recorded (P.scene q) (some i.frame) .requested k s')
    (hk : P.fingerprint w.execution q (some i.frame) .requested = .ok k)
    (hw' : w'.stopping = true) : Grounded P R s' (.executing r w') := by
  obtain ⟨leg, legs, hl, ha, hsit⟩ := h
  obtain ⟨l, hs, hc, hh, -⟩ := hsit.exists_underway hw hr
  obtain ⟨q', hq', hb, hheard, -⟩ := requested_at hR hw hr hp hask hs hc hh hk
  exact grounded_halt (s := (concluded A.recorded s (P.scene q) (some i.frame) w.previous
    (some i)).unasked) (concluded_legs hl _ _ _ _) (by simpa using ha)
    (anchors_enter hs.reaches hb (by simpa using hc) hheard) hhalt hw'

/-- An execution that goes on from a choice departs from it with the first alternative. -/
lemma grounded_choose {s : Search (L × Log) κ} {p q : σ} {w : Walk} {n : Int} {k : κ}
    (h : Grounded P R s (.executing p w)) (hw : w.stopping = false) (hr : w.replay = [])
    (hp : P.next p = .choice n q) (hn : 1 ≤ n)
    (hk : P.fingerprint w.execution q w.frame (.choice n.toNat) = .ok k) :
    Grounded P R (s.entered A.recorded (P.scene q) w.frame (.choice n.toNat) k)
      (.executing (P.reply q (.choose 0)) w) := by
  obtain ⟨leg, legs, hl, ha, hsit⟩ := h
  obtain ⟨l, hs, hc, hh, -⟩ := hsit.exists_underway hw hr
  obtain ⟨q', hq', hb, hs'⟩ := choice_at hs hp hn hk
  have hlt : ((0 : Nat) : Int) < n := by omega
  refine grounded_onward ha rfl (anchors_enter hs.reaches (hb R) hc hh) (by simp) (by simp) ?_
    hw hr (hs' 0 hlt) (.choice hq' 0 hlt) ?_ hh.symm
  · rw [Search.entered_log, Search.arrival, Log.legs_advanced, hl]
  · have hn' : n.toNat ≠ 0 := by omega
    simp [PathEntry.choices, Boundary.options, Place.choose, hc, hn']

/-- A path that halts at a choice ends in it. -/
lemma grounded_chooseHalt {s s' : Search (L × Log) κ} {p q r : σ} {w w' : Walk} {n : Int} {k : κ}
    (h : Grounded P R s (.executing p w)) (hw : w.stopping = false) (hr : w.replay = [])
    (hp : P.next p = .choice n q) (hn : 1 ≤ n)
    (hhalt : s.Halts A.recorded (P.scene q) w.frame (.choice n.toNat) k s')
    (hk : P.fingerprint w.execution q w.frame (.choice n.toNat) = .ok k)
    (hw' : w'.stopping = true) : Grounded P R s' (.executing r w') := by
  obtain ⟨leg, legs, hl, ha, hsit⟩ := h
  obtain ⟨l, hs, hc, hh, -⟩ := hsit.exists_underway hw hr
  obtain ⟨q', hq', hb, -⟩ := choice_at hs hp hn hk
  exact grounded_halt hl ha (anchors_enter hs.reaches (hb R) hc hh) hhalt hw'

/-- A search that enters an end state and leaves it again is grounded. -/
lemma grounded_finish {s s' : Search (L × Log) κ} {r : L} {stage : Stage σ} {p q : σ} {w : Walk}
    {ending : Ending} {k : κ} (h : Grounded P R s (.executing p w)) (hw : w.stopping = false)
    (hr : w.replay = []) (hp : P.next p = .ended ending q) (he : ending ≠ .stopped)
    (hi : ∀ type message, ending ≠ .interrupted type message)
    (hleave : Leaves A.recorded
      ((concluded A.recorded { s with listeners := (r, s.listeners.2) } (P.scene q) none
        w.previous none).unasked.entered A.recorded (P.scene q) none .finished k) s' stage)
    (hk : P.fingerprint w.execution q none .finished = .ok k) : Grounded P R s' stage := by
  obtain ⟨leg, legs, hl, ha, hsit⟩ := h
  obtain ⟨l, hs, hc, hh, -⟩ := hsit.exists_underway hw hr
  obtain ⟨hb, hheard⟩ := finished_at hs hp he hi hh hk
  set v := (concluded A.recorded { s with listeners := (r, s.listeners.2) } (P.scene q) none
    w.previous none).unasked with hv
  have hpath : v.path = s.path := concluded_path _ _ _ _ _
  have hseen : v.seen = s.seen := concluded_seen _ _ _ _ _
  have hl' : Log.legs (v.entered A.recorded (P.scene q) none .finished k).listeners.2 =
        [] :: (leg ++ (w.previous.map fun e => (e, none)).toList) :: legs := by
    rw [Search.entered_log, Search.arrival, Log.legs_advanced, hv, Search.unasked_listeners,
      concluded_legs (s := { s with listeners := (r, s.listeners.2) }) hl]
  refine leaves_grounded hleave hl' ?_
  rw [Search.entered_path, Search.entered_seen]
  refine .cons ?_ (anchors_enter hs.reaches (hb R) (hpath ▸ hc) hheard)
  rw [hpath]
  exact (hseen ▸ ha).mono Search.getElem?_seenAfter

/-- A turn keeps a search grounded.

**Proof sketch.** An execution between boundaries stands at places between boundaries. A boundary
that is entered is tied to the place of the execution, from which the execution departs or where
the path halts. Going back keeps the lower part of the path. A new execution starts on its way to
the place of the last choice, reaches it when it has repeated all choices, and departs from it
with the next alternative. -/
theorem Grounded.turn (hP : P.Deterministic) {s s' : Search (L × Log) κ}
    {stage stage' : Stage σ} (hR : HeedsAt P R A s stage)
    (hT : Turn P A.recorded s stage s' stage') (h : Grounded P R s stage) :
    Grounded P R s' stage' := by
  cases hT with
  | begin =>
    obtain ⟨leg, legs, hl, ha, hsit⟩ := h
    cases hsit with
    | waiting hp hleg =>
      refine ⟨leg, legs, ?_, ha, .launching hleg (.inl hp)⟩
      rw [Search.told_log, Log.legs_idle rfl, hl]
  | launch => exact grounded_launch hP h
  | rest => exact h
  | drain hw =>
    obtain ⟨leg, legs, hl, ha, hsit⟩ := h
    cases hsit with
    | stopping _ hleg hp => exact ⟨leg, legs, hl, ha, .stopping hw hleg hp⟩
    | underway hw' => simp [hw] at hw'
    | repeating hw' => simp [hw] at hw'
  | silent hw hp =>
    refine grounded_calm h hw rfl rfl fun l hs => ?_
    obtain ⟨q', hc, hs'⟩ := hs.silent hp
    exact ⟨_, hc, rfl, hs'⟩
  | effect hw hp =>
    refine grounded_calm h hw rfl rfl fun l hs => ?_
    obtain ⟨q', hc, hs'⟩ := hs.effect hp
    exact ⟨_, hc, rfl, hs'⟩
  | refuse hw hp hn =>
    refine grounded_calm h hw rfl rfl fun l hs => ?_
    obtain ⟨q', hc, hs'⟩ := hs.refuse hp hn
    exact ⟨_, hc, rfl, hs'⟩
  | repeatInstruction hw hr hp =>
    refine grounded_repeat h hw hr rfl rfl fun l hs => ?_
    obtain ⟨q', hq, -, hs'⟩ := hs.instruction hp
    exact ⟨_, .instruction hq, rfl, hs'⟩
  | repeatChoice hw hr hrest hp hn => exact grounded_repeatChoice h hw hr hrest hp hn
  | restore hw hr hp hn => exact grounded_restore h hw hr hp hn
  | instruct hw hr hp hask => exact grounded_instruct hR h hw hr hp hask
  | request hw hr hp hask ht _ hk => exact ht ▸ grounded_request hR h hw hr hp hask hk
  | requestHalt hw hr hp hask ht hhalt hk =>
    exact grounded_requestHalt hR h hw hr hp hask (ht ▸ hhalt) hk rfl
  | choose hw hr hp hn _ hk => exact grounded_choose h hw hr hp hn hk
  | chooseHalt hw hr hp hn hhalt hk => exact grounded_chooseHalt h hw hr hp hn hhalt hk rfl
  | leave hp hf hw hs hleave =>
    obtain ⟨leg, legs, hl, ha, -⟩ := h
    obtain ⟨l, rfl⟩ := hs.eq_recorded
    exact leaves_grounded hleave hl ha
  | finish hp hf hw he hi hr hs hu hleave hk =>
    obtain ⟨r, rfl⟩ := hs.eq_recorded
    exact grounded_finish h hw hr hp he hi (hu ▸ hleave) hk

/-! ## Undisturbed runs -/

variable (P R A) in
/-- What the listeners answer at the places of a run, as long as it is undisturbed. -/
def Heeds (x : Exploration σ (L × Log) κ) : Prop :=
  ∀ n, (after P A.recorded n x).Undisturbed →
    HeedsAt P R A (after P A.recorded n x).search (after P A.recorded n x).stage

/-- Whatever listeners answer, they answer something. -/
lemma heeds_true (x : Exploration σ (L × Log) κ) : Heeds P (fun _ _ => True) A x :=
  fun _ _ _ _ _ _ _ _ _ _ _ _ _ _ => trivial

/-- An undisturbed search of a deterministic program is grounded at every moment.

**Proof sketch.** Induction on the number of moves: each of them is a turn. -/
theorem grounded_after (hP : P.Deterministic) {name : String} {depthLimit maxStates : Option Int}
    {outside : Scene} {l : L}
    (hR : Heeds P R A (fresh name depthLimit maxStates outside l)) {n : Nat}
    (h : (after P A.recorded n
      (fresh name depthLimit maxStates outside l)).Undisturbed) :
    Grounded P R (after P A.recorded n (fresh name depthLimit maxStates outside l)).search
      (after P A.recorded n (fresh name depthLimit maxStates outside l)).stage := by
  induction n with
  | zero => exact ⟨[], [], rfl, .nil, .waiting rfl rfl⟩
  | succ n ih =>
    have hn := undisturbed_of_le orderly_fresh (Nat.le_succ n) h
    rw [after_succ] at h ⊢
    exact Grounded.turn hP (hR n hn) (turn_of_undisturbed h) (ih hn)

end Turns

end Exploration

end StateAtlas
