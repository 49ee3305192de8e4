import StateAtlas.Proofs.Search.Ledger
import StateAtlas.Proofs.Search.Telling

set_option autoImplicit false

/-!
# The transitions that a search crosses

Each departure from a boundary leads on to the next boundary, where the search announces the
transition from the one to the other. This module pairs the departures of a run with the states
they lead to, and says what lies between: a leg of an uninterrupted execution.

## Main definitions

* `StateAtlas.Crossed` — a path leads on to a state by a leg of an execution.
* `StateAtlas.Crossings` — the departures of a run, each with the state it has led to.

## Main results

* `StateAtlas.Exploration.crossings_after` — the departures of an undisturbed run lead on to the
  announced transitions.
-/

namespace StateAtlas

variable {σ L κ : Type} (P : Program σ κ) (R : Place σ → Bool → Prop)

/-- A path leads on to a state: there is a leg from a place with the fingerprint of its last
boundary, or from the start of the program, to a place with the fingerprint of the state. -/
def Crossed (seen : Array κ) (path : List PathEntry) (target : Nat) : Prop :=
  ∃ m b k, P.Reaches m ∧ P.At R m b (.ok k) ∧ seen[target]? = some k ∧
    match path with
    | [] => Relation.ReflTransGen (P.Calm R) (P.startPlace 0) m
    | e :: _ => ∃ l b' k', P.Reaches l ∧ P.At R l b' (.ok k') ∧ seen[e.state]? = some k' ∧
      P.Leg R l e.choice m

/-- The departures of a run, and before them the start of the program, each with the state it has
led to; the last one may still be in transit. -/
structure Crossings (crossings : List (List PathEntry × Nat)) (ledger : List (List PathEntry))
    (transit : Option (List PathEntry)) (seen : Array κ) (log : Log) : Prop where
  sources : crossings.map Prod.fst ++ transit.toList = [] :: ledger
  edges : Log.edges log =
    (crossings.map fun c => (Search.topState c.1, (c.2 : Int))).reverse
  crossed : ∀ c ∈ crossings, Crossed P R seen c.1 c.2

variable {P R}

/-- A path goes on leading to a state while fingerprints are added. -/
lemma Crossed.mono {seen seen' : Array κ} {path : List PathEntry} {target : Nat}
    (h : Crossed P R seen path target)
    (hs : ∀ {i : Nat} {k : κ}, seen[i]? = some k → seen'[i]? = some k) :
    Crossed P R seen' path target := by
  obtain ⟨m, b, k, hm, hb, hk, hp⟩ := h
  refine ⟨m, b, k, hm, hb, hs hk, ?_⟩
  cases path with
  | nil => exact hp
  | cons e below =>
    obtain ⟨l, b', k', hl, hb', hk', hleg⟩ := hp
    exact ⟨l, b', k', hl, hb', hs hk', hleg⟩

variable {A : Audience L} {crossings : List (List PathEntry × Nat)}
  {ledger : List (List PathEntry)} {seen : Array κ} {log : Log}

namespace Crossings

/-- The next departure of a search that is not in transit. -/
lemma depart (h : Crossings P R crossings ledger none seen log)
    (path : List PathEntry) :
    Crossings P R crossings (ledger ++ [path]) (some path) seen log where
  sources := by
    have hs := h.sources
    simp only [Option.toList_none, List.append_nil] at hs
    simp [hs]
  edges := h.edges
  crossed := h.crossed

/-- The arrival of a search in transit at a boundary.

**Proof sketch.** The execution is underway from the last boundary of the path to the place of
the new one. -/
lemma arrive [DecidableEq κ] {s : Search (L × Log) κ} (scene : Scene)
    (top : Option FrameId) {b : Boundary} {key : κ} {l : Place σ} {legs}
    (h : Crossings P R crossings ledger (some s.path) s.seen s.listeners.2) (ht : s.Telling)
    (hl : P.Reaches l) (hb : P.At R l b (.ok key)) (hu : P.Underway R s.seen s.path legs l) :
    Crossings P R (crossings ++ [(s.path, s.identify key)]) ledger none (s.seenAfter key)
      (s.arrival scene top b key :: s.listeners.2) where
  sources := by simpa using h.sources
  edges := by
    have hpos : Log.position s.listeners.2 = Search.topState s.path := by
      rw [Log.position, ht.path]
      cases s.path <;> rfl
    simp [Log.edges, Search.arrival, Search.view, Search.enter_eq, hpos, h.edges]
  crossed := by
    intro c hc
    rcases List.mem_append.mp hc with hc | hc
    · exact (h.crossed c hc).mono Search.getElem?_seenAfter
    · rw [List.mem_singleton.mp hc]
      refine ⟨l, b, key, hl, hb, Search.getElem?_seenAfter_identify, ?_⟩
      cases hp : s.path with
      | nil =>
        rw [hp] at hu
        exact hu
      | cons e below =>
        rw [hp] at hu
        obtain ⟨l', b', ha, hleg⟩ := hu
        obtain ⟨k', hb', hk'⟩ := ha.boundary
        exact ⟨l', b', k', ha.reaches, hb', Search.getElem?_seenAfter hk', hleg⟩

/-- Only the transitions that have been announced matter. -/
lemma of_edges {transit : Option (List PathEntry)}
    (h : Crossings P R crossings ledger transit seen log) {log' : Log}
    (hlog : Log.edges log' = Log.edges log) :
    Crossings P R crossings ledger transit seen log' :=
  { h with edges := hlog.trans h.edges }

end Crossings

namespace Exploration

/-- The path that an execution has left and not yet been led on from. -/
def transit (s : Search L κ) : Stage σ → Option (List PathEntry)
  | .waiting | .launching => if s.path = [] then some [] else none
  | .executing _ w => if !w.stopping && w.replay.isEmpty then some s.path else none
  | .ended _ => none

/-- The announcement of the last instruction is no transition. -/
lemma edges_concluded (s : Search (L × Log) κ) (scene : Scene) (top : Option FrameId)
    (previous next : Option Instruction) :
    Log.edges (concluded A.recorded s scene top previous next).listeners.2 =
      Log.edges s.listeners.2 := by
  cases previous <;> rfl

/-- A search in transit still is when the last instruction has been announced. -/
lemma crossings_concluded {s t : Search (L × Log) κ} {scene : Scene} {top : Option FrameId}
    {previous next : Option Instruction}
    (ht : t = (concluded A.recorded s scene top previous next).unasked)
    (h : Crossings P R crossings ledger (some s.path) s.seen s.listeners.2) (htell : s.Telling) :
    Crossings P R crossings ledger (some t.path) t.seen t.listeners.2 ∧ t.Telling := by
  subst ht
  have htell' := concluded_telling (A := A) htell scene top previous next
  refine ⟨?_, ⟨htell'.path, htell'.discovered, htell'.recognized⟩⟩
  simpa using h.of_edges (edges_concluded s scene top previous next)

/-- A path that is left announces no transition, and is not in transit. -/
lemma leaves_crossings {s t : Search (L × Log) κ} {stage : Stage σ}
    (hl : Leaves A.recorded s t stage)
    (h : Crossings P R crossings ledger none s.seen s.listeners.2) :
    Crossings P R crossings ledger (transit t stage) t.seen t.listeners.2 := by
  have hedges : Log.edges t.listeners.2 = Log.edges s.listeners.2 := by
    obtain ⟨new, hlog, hnew⟩ := leaves_log hl
    rw [hlog]
    clear hlog
    induction new with
    | nil => rfl
    | cons d new ih =>
      have ih := ih fun d hd => hnew d (List.mem_cons_of_mem _ hd)
      rw [List.cons_append, ← ih]
      rcases hnew d List.mem_cons_self with hd | hd <;> simp [Log.edges, hd]
  have htransit : transit t stage = none := by
    cases hl with
    | done => rfl
    | resume hr =>
      simp [transit, hr.path_ne_nil rfl]
  rw [htransit, hl.kept.1]
  exact { h with edges := hedges.trans h.edges }

/-- An execution that repeats nothing is in transit from the last boundary of its path. -/
lemma transit_underway {s : Search L κ} {p : σ} {w : Walk} (hw : w.stopping = false)
    (hr : w.replay = []) : transit s (.executing p w) = some s.path := by
  simp [transit, hw, hr]

/-- A turn that says nothing keeps the crossings, if it stays in transit from the same path. -/
lemma crossings_silent {s s' : Search (L × Log) κ} {stage stage' : Stage σ}
    (hsaid : s'.listeners.2 = s.listeners.2) (hseen : s'.seen = s.seen)
    (htransit : transit s' stage' = transit s stage)
    (h : Crossings P R crossings ledger (transit s stage) s.seen s.listeners.2) :
    ∃ crossings', Crossings P R crossings' (ledger ++ (departed s s' stage').toList)
      (transit s' stage') s'.seen s'.listeners.2 := by
  rw [departed_of_silence hsaid, hsaid, hseen, htransit]
  exact ⟨crossings, by simpa using h⟩

/-- An execution that begins is in transit, or on its way to the choice it departs from. -/
lemma transit_launch {s : Search (L × Log) κ} (hg : Grounded P R s .launching) :
    transit s.unasked (.executing (P.start s.paths) (newWalk s)) =
      transit s (.launching : Stage σ) := by
  obtain ⟨_, _, -, -, hsit⟩ := hg
  cases hsit with
  | launching _ hpath =>
    rcases hpath with hpath | ⟨e, below, hpath, he⟩
    · simp [transit, hpath, newWalk, Search.replay_eq, PathEntry.choices]
    · simp [transit, hpath, newWalk, Search.replay_eq, PathEntry.choices, he]

section Turns

variable [DecidableEq κ]

/-- A search that goes on from a requested boundary has arrived there, and departs from it. -/
lemma crossings_request {s t : Search (L × Log) κ} {q : σ} {w : Walk} {i : Instruction}
    {key : κ} {l : Place σ} {legs} (hw : w.stopping = false) (hr : w.replay = [])
    (ht : t = (concluded A.recorded s (P.scene q) (some i.frame) w.previous (some i)).unasked)
    (h : Crossings P R crossings ledger (some t.path) t.seen t.listeners.2) (htell : t.Telling)
    (hl : P.Reaches l) (hb : P.At R l .requested (.ok key))
    (hu : P.Underway R t.seen t.path legs l) :
    let s' := (t.entered A.recorded (P.scene q) (some i.frame) .requested key).told A.recorded
      (P.scene q) (some i.frame) (.executing i)
    let stage' : Stage σ := .executing (P.reply q .proceed)
      { w with frame := some i.frame, previous := some i }
    ∃ crossings', Crossings P R crossings' (ledger ++ (departed s s' stage').toList)
      (transit s' stage') s'.seen s'.listeners.2 := by
  have harr := h.arrive (P.scene q) (some i.frame) htell hl hb hu
  have hd := harr.depart (⟨t.identify key, 0, 0⟩ :: t.path)
  rw [← Search.entered_log A] at hd
  refine ⟨crossings ++ [(t.path, t.identify key)], ?_⟩
  simpa [departed_of_log (requested_log ht key), Delivery.isPassage, Search.arrival, Stage.goesOn,
    transit, hw, hr, Boundary.options] using hd.of_edges (Log.edges_idle rfl _ _)

/-- A search that goes on from a choice has arrived there, and departs from it. -/
lemma crossings_choose {s : Search (L × Log) κ} {p q : σ} {w : Walk} {n : Int} {key : κ}
    {l : Place σ} {legs} (hw : w.stopping = false) (hr : w.replay = [])
    (h : Crossings P R crossings ledger (some s.path) s.seen s.listeners.2) (htell : s.Telling)
    (hl : P.Reaches l) (hb : P.At R l (.choice n.toNat) (.ok key))
    (hu : P.Underway R s.seen s.path legs l) :
    let s' := s.entered A.recorded (P.scene q) w.frame (.choice n.toNat) key
    let stage' : Stage σ := .executing p w
    ∃ crossings', Crossings P R crossings' (ledger ++ (departed s s' stage').toList)
      (transit s' stage') s'.seen s'.listeners.2 := by
  have hlog := Search.entered_log A (P.scene q) w.frame (.choice n.toNat) key s
  have harr := h.arrive (P.scene q) w.frame htell hl hb hu
  have hd := harr.depart (⟨s.identify key, n.toNat, 0⟩ :: s.path)
  rw [← hlog] at hd
  refine ⟨crossings ++ [(s.path, s.identify key)], ?_⟩
  rw [departed_of_log (hlog.trans List.singleton_append.symm)]
  simpa [Delivery.isPassage, Search.arrival, Stage.goesOn, transit, hw, hr, Boundary.options]
    using hd

/-- The arrival at a boundary that ends the path. -/
lemma halts_crossings {s s' : Search (L × Log) κ} {scene : Scene} {top : Option FrameId}
    {b : Boundary} {key : κ} {l : Place σ} {legs}
    (hh : s.Halts A.recorded scene top b key s')
    (h : Crossings P R crossings ledger (some s.path) s.seen s.listeners.2) (ht : s.Telling)
    (hl : P.Reaches l) (hb : P.At R l b (.ok key)) (hu : P.Underway R s.seen s.path legs l) :
    Crossings P R (crossings ++ [(s.path, s.identify key)]) ledger none s'.seen
      s'.listeners.2 := by
  have harr := h.arrive scene top ht hl hb hu
  rw [hh.seen_eq]
  exact { harr with edges := (hh.reading Log.edges fun _ _ => rfl).trans harr.edges }

/-- A turn keeps the crossings of a run.

**Proof sketch.** An execution underway is in transit from the last boundary, and arrives at the
next one. From there it departs, or the path is left; a restored choice departs again. -/
theorem crossings_turn (hH : P.Honest) {s s' : Search (L × Log) κ} {stage stage' : Stage σ}
    (hR : HeedsAt P R A s stage) (hT : Turn P A.recorded s stage s' stage')
    (hg : Grounded P R s stage) (ht : s.Telling)
    (h : Crossings P R crossings ledger (transit s stage) s.seen s.listeners.2) :
    ∃ crossings', Crossings P R crossings' (ledger ++ (departed s s' stage').toList)
      (transit s' stage') s'.seen s'.listeners.2 := by
  cases hT with
  | begin =>
    rw [departed_of_not_goesOn rfl]
    exact ⟨crossings, by simpa [transit] using { h with edges := h.edges }⟩
  | launch => exact crossings_silent rfl rfl (transit_launch hg) h
  | rest => exact crossings_silent rfl rfl rfl h
  | drain hw => exact crossings_silent rfl rfl (by simp [transit, hw]) h
  | silent hw | effect hw | refuse hw | repeatInstruction hw =>
    exact crossings_silent rfl rfl (by simp [transit, hw]) h
  | @repeatChoice p q w n c rest hw hr hrest hp hn =>
    have hrest : rest.isEmpty = false := by simpa using hrest
    exact crossings_silent rfl rfl (by simp [transit, hr, hrest]) h
  | @restore p q w n c hw hr hp hn =>
    have hlog : (s.told A.recorded (P.scene q) w.frame .restored).listeners.2 =
      [⟨s.view (P.scene q) w.frame, .restored⟩] ++ s.listeners.2 := rfl
    have h : Crossings P R crossings ledger none s.seen s.listeners.2 := by
      simpa [transit, hw, hr] using h
    have hd := h.depart s.path
    refine ⟨crossings, ?_⟩
    simpa [departed_of_log hlog, Delivery.isPassage, Stage.goesOn, transit, hw]
      using hd.of_edges (Log.edges_idle rfl _ _)
  | @instruct p q w i hw hr hp hask =>
    rw [transit_underway hw hr] at h
    rw [departed_instruct]
    refine ⟨crossings, ?_⟩
    have hedges := edges_concluded (A := A) s (P.scene q) (some i.frame) w.previous (some i)
    simpa [transit, hw, hr] using h.of_edges ((Log.edges_idle rfl _ _).trans hedges)
  | request hw hr hp hask htt hcont hk =>
    obtain ⟨l, legs, hl, hb, hu⟩ := hg.exists_requested hw hr hR hp hask hk
    rw [transit_underway hw hr] at h
    obtain ⟨h, ht⟩ := crossings_concluded htt h ht
    exact crossings_request hw hr htt h ht hl hb (by simpa [htt] using hu)
  | @requestHalt t _ p q w i k hw hr hp hask htt hhalt hk =>
    obtain ⟨l, legs, hl, hb, hu⟩ := hg.exists_requested hw hr hR hp hask hk
    rw [transit_underway hw hr] at h
    obtain ⟨h, ht⟩ := crossings_concluded htt h ht
    have hu : P.Underway R t.seen t.path legs l := by simpa [htt] using hu
    rw [departed_of_not_goesOn rfl]
    exact ⟨_, by simpa [transit] using halts_crossings hhalt h ht hl hb hu⟩
  | choose hw hr hp hn hcont hk =>
    obtain ⟨l, legs, hl, hb, hu⟩ := hg.exists_choice hw hr hp hn hk
    rw [transit_underway hw hr] at h
    exact crossings_choose hw hr h ht hl hb hu
  | chooseHalt hw hr hp hn hhalt hk =>
    obtain ⟨l, legs, hl, hb, hu⟩ := hg.exists_choice hw hr hp hn hk
    rw [transit_underway hw hr] at h
    rw [departed_of_not_goesOn rfl]
    exact ⟨_, by simpa [transit] using halts_crossings hhalt h ht hl hb hu⟩
  | leave hp hf hw hs hleave =>
    have hstop := stopping_of_ended hH hg hp hw
    obtain ⟨l, rfl⟩ := hs.eq_recorded
    rw [departed_of_not_goesOn hleave.goesOn]
    exact ⟨crossings, by simpa using leaves_crossings hleave (by simpa [transit, hstop] using h)⟩
  | @finish t u _ _ p q w ending k hp hf hw he hi hr hs hu hleave hk =>
    obtain ⟨l, legs, hl, hb, hu'⟩ := hg.exists_finished hw hr hp he hi hk
    obtain ⟨r, rfl⟩ := hs.eq_recorded
    rw [transit_underway hw hr] at h
    obtain ⟨h, ht⟩ := crossings_concluded (s := { s with listeners := (r, s.listeners.2) }) hu h
      ⟨ht.path, ht.discovered, ht.recognized⟩
    have hu' : P.Underway R u.seen u.path legs l := by simpa [hu] using hu'
    have hhalt : u.Halts A.recorded (P.scene q) none .finished k
        (u.entered A.recorded (P.scene q) none .finished k) := .matched (.inr rfl)
    rw [departed_of_not_goesOn hleave.goesOn]
    have hcross := leaves_crossings hleave (halts_crossings hhalt h ht hl hb hu')
    exact ⟨_, by simpa using hcross⟩

/-- The departures of an undisturbed run lead on to the transitions it has announced.

**Proof sketch.** Induction on the number of moves: each of them is a turn. -/
theorem crossings_after (hP : P.Deterministic) (hH : P.Honest) {name : String}
    {depthLimit maxStates : Option Int} {outside : Scene} {l : L}
    {x : Exploration σ (L × Log) κ} (hx : x = fresh name depthLimit maxStates outside l)
    (hR : Heeds P R A x) {n : Nat} (h : (after P A.recorded n x).Undisturbed) :
    ∃ crossings, Crossings P R crossings (departures P A n x)
      (transit (after P A.recorded n x).search (after P A.recorded n x).stage)
      (after P A.recorded n x).search.seen (after P A.recorded n x).search.listeners.2 := by
  induction n with
  | zero =>
    subst hx
    exact ⟨[], rfl, rfl, by simp⟩
  | succ n ih =>
    have hn := undisturbed_of_le (hx ▸ orderly_fresh) (Nat.le_succ n) h
    obtain ⟨crossings, hc⟩ := ih hn
    rw [after_succ] at h
    rw [departures_succ, after_succ]
    exact crossings_turn hH (hR n hn) (turn_of_undisturbed h)
      (hx ▸ grounded_after hP (hx ▸ hR) (hx ▸ hn)) (hx ▸ telling_after (hx ▸ hn)) hc

end Turns

end Exploration

end StateAtlas
