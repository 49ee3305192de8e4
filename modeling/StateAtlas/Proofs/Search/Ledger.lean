import StateAtlas.Proofs.Search.Anchor

set_option autoImplicit false

/-!
# The ledger of followed alternatives

Each time an execution goes on from a boundary, the path at that moment is a departure: it says
under which prefix which alternative is followed. The list of all departures of a run so far is a
ledger, and its entries of one state are the alternatives of this state, each once and in order,
all under the same prefix: as many as the counter on the path says while the state is on it, and
all of them when it has been left.

## Main definitions

* `StateAtlas.Exploration.departure` — the path from which a move goes on, if it does.
* `StateAtlas.Exploration.departures` — the departures of the first moves of a run.
* `StateAtlas.Ledger` — what a list of departures says of the states seen so far.

## Main results

* `StateAtlas.Ledger.enter`, `StateAtlas.Ledger.close`, `StateAtlas.Ledger.turnOver`,
  `StateAtlas.Ledger.take` — how the operations of a search change a ledger.
* `StateAtlas.Exploration.ledger_after` — the departures of an undisturbed run are a ledger.
-/

namespace StateAtlas

variable {σ L κ : Type}

/-- The deliveries between two moments of a run. -/
def Log.said (earlier later : Log) : Log := later.take (later.length - earlier.length)

lemma Log.said_append (new earlier : Log) : Log.said earlier (new ++ earlier) = new := by
  simp [Log.said]

/-- A delivery at which an execution may leave a boundary. -/
def Delivery.isPassage (d : Delivery) : Bool :=
  match d.notice with
  | .advanced | .restored => true
  | _ => false

/-- The departures from a state. -/
def departuresFrom (ledger : List (List PathEntry)) (i : Nat) : List (List PathEntry) :=
  ledger.filter fun π => Search.topState π = i

lemma departuresFrom_concat (ledger : List (List PathEntry)) (e : PathEntry)
    (below : List PathEntry) (i : Nat) :
    departuresFrom (ledger ++ [e :: below]) i =
      departuresFrom ledger i ++ if e.state = i then [e :: below] else [] := by
  have htop : Search.topState (e :: below) = i ↔ e.state = i := Int.natCast_inj
  by_cases h : e.state = i <;> simp [departuresFrom, htop, h]

/-- The first alternatives of a boundary, each as the path on which it is followed. -/
def firstAlternatives (e : PathEntry) (below : List PathEntry) (n : Nat) :
    List (List PathEntry) :=
  (List.range n).map fun a => { e with choice := a } :: below

lemma firstAlternatives_succ (e : PathEntry) (below : List PathEntry) (n : Nat) :
    firstAlternatives e below (n + 1) =
      firstAlternatives e below n ++ [{ e with choice := n } :: below] := by
  simp [firstAlternatives, List.range_succ]

/-- The alternatives of every boundary on a path have been followed up to the current one. -/
def Followed (ledger : List (List PathEntry)) : List PathEntry → Prop
  | [] => True
  | e :: below =>
    departuresFrom ledger e.state = firstAlternatives e below (e.choice + 1) ∧
      Followed ledger below

/-- A departure from another state changes nothing for the boundaries on a path. -/
lemma Followed.concat {ledger : List (List PathEntry)} {path : List PathEntry}
    (h : Followed ledger path) {e : PathEntry} {below : List PathEntry}
    (he : ∀ e' ∈ path, e'.state ≠ e.state) : Followed (ledger ++ [e :: below]) path := by
  induction path with
  | nil => trivial
  | cons e' path ih =>
    have hne : e.state ≠ e'.state := (he e' List.mem_cons_self).symm
    refine ⟨?_, ih h.2 fun e'' he'' => he e'' (List.mem_cons_of_mem _ he'')⟩
    rw [departuresFrom_concat, if_neg hne, List.append_nil, h.1]

variable (P : Program σ κ) (R : Place σ → Bool → Prop)

/-- A state with its number of alternatives, as at some place of an execution. -/
def IsNode (seen : Array κ) (i n : Nat) : Prop :=
  ∃ l b k, P.Reaches l ∧ P.At R l b (.ok k) ∧ seen[i]? = some k ∧ b.arity = n

/-- What a list of departures says of the states seen so far. The states on the path `live` are
those that have not been left; the last one is pending before its current alternative has been
followed. A state without departures is an end state, unless limits cut paths off. -/
structure Ledger (ledger : List (List PathEntry)) (seen : Array κ) (live : List PathEntry)
    (pending : Bool) (cut : Prop) : Prop where
  known : ∀ π ∈ ledger, ∃ e below, π = e :: below ∧ e.state < seen.size
  distinct : (live.map PathEntry.state).Nodup
  node : ∀ e ∈ live, IsNode P R seen e.state (max e.options 1)
  choice : ∀ e ∈ live, e.choice < max e.options 1
  passed : Followed ledger live.tail
  current : ∀ e below, live = e :: below → departuresFrom ledger e.state =
    firstAlternatives e below (if pending then e.choice else e.choice + 1)
  closed : ∀ i < seen.size, (∀ e ∈ live, e.state ≠ i) →
    (departuresFrom ledger i = [] ∧ (cut ∨ IsNode P R seen i 0)) ∨
    ∃ e below, e.state = i ∧ IsNode P R seen i (max e.options 1) ∧
      departuresFrom ledger i = firstAlternatives e below (max e.options 1)

section Operations

variable {P R} {ledger : List (List PathEntry)} {seen : Array κ} {live below : List PathEntry}
  {pending : Bool} {cut : Prop} {e : PathEntry}

/-- A state is known by its number. -/
lemma IsNode.lt_size {i n : Nat} (h : IsNode P R seen i n) : i < seen.size := by
  obtain ⟨-, -, k, -, -, hk, -⟩ := h
  exact (Array.getElem?_eq_some_iff.mp hk).1

/-- A state stays what it is when a fingerprint is added. -/
lemma IsNode.push {i n : Nat} (h : IsNode P R seen i n) (key : κ) :
    IsNode P R (seen.push key) i n := by
  have hi := h.lt_size
  obtain ⟨l, b, k, hl, hb, hk, hn⟩ := h
  refine ⟨l, b, k, hl, hb, ?_, hn⟩
  rw [Array.getElem?_push_lt hi, ← Array.getElem?_eq_getElem hi, hk]

namespace Ledger

/-- Before the first boundary no state has been seen. -/
lemma empty (cut : Prop) : Ledger P R [] #[] [] true cut where
  known := by simp
  distinct := .nil
  node := by simp
  choice := by simp
  passed := trivial
  current := by simp
  closed := by simp

/-- Where no boundary is on the path, none is pending. -/
lemma of_nil (h : Ledger P R ledger seen live pending cut) (hl : live = []) (pending' : Bool) :
    Ledger P R ledger seen [] pending' cut := by
  subst hl
  exact { h with current := by simp }

/-- No departure is known from a state that has not been seen. -/
lemma departuresFrom_size (h : Ledger P R ledger seen live pending cut) :
    departuresFrom ledger seen.size = [] := by
  rw [departuresFrom, List.filter_eq_nil_iff]
  intro π hπ
  obtain ⟨e, below, rfl, he⟩ := h.known π hπ
  simp only [Search.topState, Int.natCast_inj, decide_eq_true_eq]
  omega

/-- A path ends at a new boundary. -/
lemma see (h : Ledger P R ledger seen live pending cut) (key : κ)
    (hleaf : cut ∨ IsNode P R (seen.push key) seen.size 0) :
    Ledger P R ledger (seen.push key) live pending cut where
  known π hπ := by
    obtain ⟨e, below, rfl, he⟩ := h.known π hπ
    exact ⟨e, below, rfl, by rw [Array.size_push]; omega⟩
  distinct := h.distinct
  node e he := (h.node e he).push key
  choice := h.choice
  passed := h.passed
  current := h.current
  closed i hi hlive := by
    rw [Array.size_push] at hi
    rcases Nat.lt_succ_iff_lt_or_eq.mp hi with hi | rfl
    · rcases h.closed i hi hlive with ⟨hd, hc⟩ | ⟨e, below, he, hn, hd⟩
      · exact .inl ⟨hd, hc.imp_right (·.push key)⟩
      · exact .inr ⟨e, below, he, hn.push key, hd⟩
    · exact .inl ⟨h.departuresFrom_size, hleaf⟩

/-- The path goes on from a new boundary with its first alternative. -/
lemma enter (h : Ledger P R ledger seen live false cut) (key : κ) {n : Nat}
    (hn : IsNode P R (seen.push key) seen.size (max n 1)) :
    Ledger P R (ledger ++ [⟨seen.size, n, 0⟩ :: live]) (seen.push key)
      (⟨seen.size, n, 0⟩ :: live) false cut := by
  have hlive : ∀ e ∈ live, e.state < seen.size := fun e he => (h.node e he).lt_size
  have hfollowed : Followed ledger live := by
    cases live with
    | nil => trivial
    | cons e below => exact ⟨h.current e below rfl, h.passed⟩
  refine ⟨?_, ?_, ?_, ?_, ?_, ?_, ?_⟩
  · intro π hπ
    rw [Array.size_push]
    rcases List.mem_append.mp hπ with hπ | hπ
    · obtain ⟨e, below, rfl, he⟩ := h.known π hπ
      exact ⟨e, below, rfl, by omega⟩
    · rw [List.mem_singleton] at hπ
      exact ⟨_, _, hπ, Nat.lt_succ_self _⟩
  · refine List.nodup_cons.mpr ⟨?_, h.distinct⟩
    simp only [List.mem_map, not_exists, not_and]
    intro e he
    exact Nat.ne_of_lt (hlive e he)
  · intro e he
    rcases List.mem_cons.mp he with rfl | he
    · exact hn
    · exact (h.node e he).push key
  · intro e he
    rcases List.mem_cons.mp he with rfl | he
    · exact Nat.lt_of_lt_of_le Nat.zero_lt_one (Nat.le_max_right _ _)
    · exact h.choice e he
  · exact hfollowed.concat fun e he => Nat.ne_of_lt (hlive e he)
  · rintro e below heq
    obtain ⟨rfl, rfl⟩ := List.cons.inj heq
    rw [departuresFrom_concat, h.departuresFrom_size]
    simp [firstAlternatives, List.range_succ]
  · intro i hi hne
    rw [Array.size_push] at hi
    have hi' : seen.size ≠ i := hne _ List.mem_cons_self
    rw [departuresFrom_concat, if_neg hi', List.append_nil]
    rcases h.closed i (by omega) fun e he => hne e (List.mem_cons_of_mem _ he) with
      ⟨hd, hc⟩ | ⟨e, below, he, hn, hd⟩
    · exact .inl ⟨hd, hc.imp_right (·.push key)⟩
    · exact .inr ⟨e, below, he, hn.push key, hd⟩

/-- A boundary without an alternative left is left. -/
lemma close (h : Ledger P R ledger seen (e :: below) false cut) (hm : e.hasMore = false) :
    Ledger P R ledger seen below false cut where
  known := h.known
  distinct := (List.nodup_cons.mp h.distinct).2
  node e' he := h.node e' (List.mem_cons_of_mem _ he)
  choice e' he := h.choice e' (List.mem_cons_of_mem _ he)
  passed := by
    have hp := h.passed
    cases below with
    | nil => trivial
    | cons e' below => exact hp.2
  current e' below' heq := by
    have hp := h.passed
    subst heq
    exact hp.1
  closed i hi hne := by
    by_cases hei : e.state = i
    · subst hei
      have hall : e.choice + 1 = max e.options 1 := by
        have hlt := h.choice e List.mem_cons_self
        simp only [PathEntry.hasMore, decide_eq_false_iff_not, Nat.not_lt] at hm
        omega
      refine .inr ⟨e, below, rfl, h.node e List.mem_cons_self, ?_⟩
      rw [h.current e below rfl, hall]
      rfl
    · refine h.closed i hi fun e' he' => ?_
      rcases List.mem_cons.mp he' with rfl | he'
      · exact hei
      · exact hne e' he'

/-- The next alternative of a boundary comes up. -/
lemma turnOver (h : Ledger P R ledger seen (e :: below) false cut) (hm : e.hasMore = true) :
    Ledger P R ledger seen (e.nextChoice :: below) true cut where
  known := h.known
  distinct := h.distinct
  node e' he := by
    rcases List.mem_cons.mp he with rfl | he
    · exact h.node e List.mem_cons_self
    · exact h.node e' (List.mem_cons_of_mem _ he)
  choice e' he := by
    rcases List.mem_cons.mp he with rfl | he
    · simp only [PathEntry.hasMore, decide_eq_true_eq] at hm
      exact Nat.lt_of_lt_of_le hm (Nat.le_max_left _ _)
    · exact h.choice e' (List.mem_cons_of_mem _ he)
  passed := h.passed
  current e' below' heq := by
    obtain ⟨rfl, rfl⟩ := List.cons.inj heq
    exact h.current e below rfl
  closed i hi hne := by
    refine h.closed i hi fun e' he' => ?_
    rcases List.mem_cons.mp he' with rfl | he'
    · exact hne e'.nextChoice List.mem_cons_self
    · exact hne e' (List.mem_cons_of_mem _ he')

/-- The alternative that has come up is followed. -/
lemma take (h : Ledger P R ledger seen (e :: below) true cut) :
    Ledger P R (ledger ++ [e :: below]) seen (e :: below) false cut := by
  have hnd := List.nodup_cons.mp h.distinct
  have hlt : e.state < seen.size := (h.node e List.mem_cons_self).lt_size
  refine ⟨?_, h.distinct, h.node, h.choice, ?_, ?_, ?_⟩
  · intro π hπ
    rcases List.mem_append.mp hπ with hπ | hπ
    · exact h.known π hπ
    · exact ⟨e, below, List.mem_singleton.mp hπ, hlt⟩
  · refine h.passed.concat fun e' he' heq => hnd.1 ?_
    exact heq ▸ List.mem_map_of_mem he'
  · rintro e' below' heq
    obtain ⟨rfl, rfl⟩ := List.cons.inj heq
    rw [departuresFrom_concat, h.current e below rfl]
    simp [firstAlternatives_succ]
  · intro i hi hne
    rw [departuresFrom_concat, if_neg (hne e List.mem_cons_self), List.append_nil]
    exact h.closed i hi hne

/-- The alternatives of a boundary on the path, up to some number. -/
lemma alternatives_of_mem (h : Ledger P R ledger seen live pending cut) (he : e ∈ live) :
    ∃ below, ∃ n ≤ max e.options 1, departuresFrom ledger e.state = firstAlternatives e below n := by
  have followed : ∀ path : List PathEntry, Followed ledger path → e ∈ path →
      ∃ below, departuresFrom ledger e.state = firstAlternatives e below (e.choice + 1) := by
    intro path hf hmem
    induction path with
    | nil => simp at hmem
    | cons e' path ih =>
      rcases List.mem_cons.mp hmem with rfl | hmem
      · exact ⟨path, hf.1⟩
      · exact ih hf.2 hmem
  have hc := h.choice e he
  cases live with
  | nil => simp at he
  | cons e' path =>
    rcases List.mem_cons.mp he with rfl | hmem
    · refine ⟨path, _, ?_, h.current e path rfl⟩
      split <;> omega
    · obtain ⟨below, hd⟩ := followed path h.passed hmem
      exact ⟨below, _, hc, hd⟩

/-- A departure is one of the first alternatives of its state, all of which have departed under
the same prefix; once the state has been left, they are all of its alternatives. -/
theorem alternatives (h : Ledger P R ledger seen live pending cut) (hπ : e :: below ∈ ledger) :
    ∃ n ≤ max e.options 1, departuresFrom ledger e.state = firstAlternatives e below n ∧
      (live = [] → n = max e.options 1) := by
  have hmem : e :: below ∈ departuresFrom ledger e.state :=
    List.mem_filter.mpr ⟨hπ, by simp [Search.topState]⟩
  have same : ∀ e' below' n, departuresFrom ledger e.state = firstAlternatives e' below' n →
      departuresFrom ledger e.state = firstAlternatives e below n ∧ e'.options = e.options := by
    intro e' below' n hd
    obtain ⟨a, -, ha⟩ := List.mem_map.mp (hd ▸ hmem)
    obtain ⟨rfl, rfl⟩ := List.cons.inj ha
    exact ⟨hd, rfl⟩
  by_cases hlive : ∃ e' ∈ live, e'.state = e.state
  · obtain ⟨e', he', hs⟩ := hlive
    obtain ⟨below', n, hn, hd⟩ := h.alternatives_of_mem he'
    obtain ⟨hd, ho⟩ := same e' below' n (hs ▸ hd)
    exact ⟨n, ho ▸ hn, hd, fun hnil => by simp [hnil] at he'⟩
  · obtain ⟨_, _, heq, hlt⟩ := h.known _ hπ
    obtain ⟨rfl, rfl⟩ := List.cons.inj heq
    rcases h.closed _ hlt fun e' he' hs => hlive ⟨e', he', hs⟩ with ⟨hd, -⟩ | ⟨e', below', -, -, hd⟩
    · simp [hd] at hmem
    · obtain ⟨hd, ho⟩ := same e' below' _ hd
      exact ⟨_, ho ▸ Nat.le_refl _, hd, fun _ => by rw [ho]⟩

end Ledger

end Operations

namespace Exploration

section Departures

variable (P : Program σ κ) (A : Audience L) [DecidableEq κ]

/-- The path from which an execution goes on after some deliveries, if it has left a boundary. -/
def departed (s s' : Search (L × Log) κ) (stage : Stage σ) : Option (List PathEntry) :=
  if (Log.said s.listeners.2 s'.listeners.2).any Delivery.isPassage && stage.goesOn then
    some s'.path
  else none

/-- The path from which a move goes on, if it leaves a boundary. -/
def departure (x : Exploration σ (L × Log) κ) : Option (List PathEntry) :=
  departed x.search (step P A.recorded x).search (step P A.recorded x).stage

/-- The departures of the first moves of a run. -/
def departures (n : Nat) (x : Exploration σ (L × Log) κ) : List (List PathEntry) :=
  (List.range n).filterMap fun i => departure P A (after P A.recorded i x)

lemma departures_succ (n : Nat) (x : Exploration σ (L × Log) κ) :
    departures P A (n + 1) x =
      departures P A n x ++ (departure P A (after P A.recorded n x)).toList := by
  rw [departures, List.range_succ, List.filterMap_append]
  cases h : departure P A (after P A.recorded n x) <;> simp [departures, h]

end Departures

/-- The boundaries that have not been left: all of the path, but for the last one where the path
has ended. -/
def live (s : Search L κ) : Stage σ → List PathEntry
  | .waiting | .launching => s.path
  | .executing _ w => if w.stopping then s.path.tail else s.path
  | .ended _ => []

/-- Whether the alternative of the last boundary has still to be followed. -/
def pending : Stage σ → Bool
  | .executing _ w => !w.stopping && !w.replay.isEmpty
  | .waiting | .launching => true
  | .ended _ => false

variable {P : Program σ κ} {R : Place σ → Bool → Prop} {A : Audience L}
  {ledger : List (List PathEntry)} {cut : Prop}

/-- Going back closes one boundary after another, until one has an alternative left.

**Proof sketch.** Induction on the retreats. The boundary on top of the path is not in the ledger
any more; the one below it is turned over or closed. -/
lemma retreats_ledger {s t : Search L κ} {r : Retreat} (h : s.Retreats A t r) :
    Ledger P R ledger s.seen s.path.tail false cut →
      (r = .resume ∧ Ledger P R ledger t.seen t.path true cut) ∨
        (r = .done ∧ t.path = [] ∧ Ledger P R ledger t.seen t.path false cut) := by
  induction h with
  | idle h =>
    intro hl
    rw [h] at hl ⊢
    exact .inr ⟨rfl, rfl, hl⟩
  | last h =>
    intro hl
    rw [h] at hl
    exact .inr ⟨rfl, rfl, hl⟩
  | resume h hm =>
    intro hl
    rw [h] at hl
    exact .inl ⟨rfl, hl.turnOver hm⟩
  | further h hm _ ih =>
    intro hl
    rw [h] at hl
    exact ih (hl.close hm)

/-- A search that leaves a path keeps its ledger. -/
lemma leaves_ledger {s t : Search L κ} {stage : Stage σ} (h : Leaves A s t stage)
    (hl : Ledger P R ledger s.seen s.path.tail false cut) :
    stage.goesOn = false ∧ Ledger P R ledger t.seen (live t stage) (pending stage) cut := by
  cases h with
  | resume h =>
    rcases retreats_ledger h hl with ⟨-, h⟩ | ⟨h, -⟩
    · exact ⟨rfl, h⟩
    · simp at h
  | done h =>
    rcases retreats_ledger h hl with ⟨h, -⟩ | ⟨-, hp, h⟩
    · simp at h
    · exact ⟨rfl, h.of_nil hp _⟩

/-- An execution ends only between two boundaries, or after it has been told to stop. -/
lemma stopping_of_ended (hH : P.Honest) {s : Search (L × Log) κ} {p q : σ} {w : Walk}
    {ending : Ending} (h : Grounded P R s (.executing p w)) (hp : P.next p = .ended ending q)
    (hw : w.stopping = true ∨ ending = .stopped ∨ w.replay ≠ []) : w.stopping = true := by
  obtain ⟨leg, legs, -, -, hsit⟩ := h
  cases hsit with
  | stopping hw => exact hw
  | underway hw' hr hs =>
    obtain ⟨q', hq', -⟩ := hs.alike.exists_next hp
    rcases hw with hw | rfl | hr'
    · exact hw
    · exact absurd hq' (hH _ _ hs.reaches)
    · exact absurd hr hr'
  | repeating _ _ _ _ ha hs hm =>
    -- the execution is on its way to a choice, which it has not reached at its end
    exfalso
    obtain ⟨q', hq', -⟩ := hs.alike.exists_next hp
    simp only [Move.withConfig] at hq'
    obtain ⟨n, q'', hq'', -⟩ := ha.next_eq
    rcases hm.cases_head with rfl | ⟨m', ho, -⟩
    · simp [hq'] at hq''
    · cases ho <;> simp_all

/-- Only an execution that goes on leaves a boundary. -/
lemma departed_of_not_goesOn {s s' : Search (L × Log) κ} {stage : Stage σ}
    (h : stage.goesOn = false) : departed s s' stage = none := by
  simp [departed, h]

/-- Whether an execution leaves a boundary is read off what has been said since. -/
lemma departed_of_log {s s' : Search (L × Log) κ} {new : Log}
    (h : s'.listeners.2 = new ++ s.listeners.2) (stage : Stage σ) :
    departed s s' stage =
      if new.any Delivery.isPassage && stage.goesOn then some s'.path else none := by
  rw [departed, h, Log.said_append]

/-- A departure is the path of an execution that goes on from a boundary or a restored choice. -/
lemma departed_eq_some {s s' : Search (L × Log) κ} {stage : Stage σ} {π : List PathEntry} :
    departed s s' stage = some π ↔
      (∃ d ∈ Log.said s.listeners.2 s'.listeners.2, d.isPassage = true) ∧
        stage.goesOn = true ∧ s'.path = π := by
  simp [departed, and_assoc]

/-- No boundary is left where nothing is said. -/
lemma departed_of_silence {s s' : Search (L × Log) κ} (h : s'.listeners.2 = s.listeners.2)
    (stage : Stage σ) : departed s s' stage = none := by
  rw [departed_of_log (h.trans (List.nil_append _).symm)]
  rfl

/-- An instruction before which no boundary is reached leaves none. -/
lemma departed_instruct (s : Search (L × Log) κ) (scene : Scene) (top : Option FrameId)
    (previous : Option Instruction) (i : Instruction) (stage : Stage σ) :
    departed s ((concluded A.recorded s scene top previous (some i)).told A.recorded scene top
      (.executing i)) stage = none := by
  rw [departed_of_log (by rw [Search.told_log, concluded_log, ← List.cons_append])]
  cases previous <;> simp [announced, Delivery.isPassage]

/-- A turn that says nothing, stays among the same boundaries and leaves as much to be followed
keeps the ledger. -/
lemma ledger_silent {s s' : Search (L × Log) κ} {stage stage' : Stage σ}
    (hsaid : s'.listeners.2 = s.listeners.2) (hseen : s'.seen = s.seen)
    (hlive : live s' stage' = live s stage) (hpending : pending stage' = pending stage)
    (h : Ledger P R ledger s.seen (live s stage) (pending stage) cut) :
    Ledger P R (ledger ++ (departed s s' stage').toList) s'.seen (live s' stage')
      (pending stage') cut := by
  rw [departed_of_silence hsaid, hseen, hlive, hpending]
  simpa using h

/-- The ledger of an execution that repeats nothing has followed the last alternative. -/
lemma ledger_underway {s : Search L κ} {p : σ} {w : Walk} (hw : w.stopping = false)
    (hr : w.replay = []) :
    Ledger P R ledger s.seen (live s (.executing p w)) (pending (.executing p w)) cut ↔
      Ledger P R ledger s.seen s.path false cut := by
  simp [live, pending, hw, hr]

/-- An execution that begins has still to follow the last alternative of the path, if there is
one. -/
lemma ledger_launch {s : Search (L × Log) κ} (hg : Grounded P R s .launching)
    (h : Ledger P R ledger s.seen s.path true cut) :
    Ledger P R (ledger ++ (departed s s.unasked
        (.executing (P.start s.paths) (newWalk s))).toList) s.unasked.seen
      (live s.unasked (.executing (P.start s.paths) (newWalk s)))
      (pending (.executing (P.start s.paths) (newWalk s))) cut := by
  obtain ⟨_, _, -, -, hsit⟩ := hg
  have hnone : departed s s.unasked (.executing (P.start s.paths) (newWalk s)) = none :=
    departed_of_silence rfl _
  have hp : pending (.executing (P.start s.paths) (newWalk s)) = !s.replay.isEmpty := rfl
  rw [hnone, hp, Search.replay_eq]
  cases hsit with
  | launching _ hpath =>
    rcases hpath with hpath | ⟨e, below, hpath, he⟩
    · simpa [live, hpath, newWalk] using h.of_nil hpath _
    · have hsome : (PathEntry.choices (e :: below)).isEmpty = false := by
        simp [PathEntry.choices, he]
      simpa [live, newWalk, hpath, hsome] using h

/-- A restored choice is departed from with its next alternative. -/
lemma ledger_restore {s : Search (L × Log) κ} {p q : σ} {w : Walk} {n : Int} {c : Nat}
    (hg : Grounded P R s (.executing p w)) (hw : w.stopping = false) (hr : w.replay = [c])
    (hp : P.next p = .choice n q) (hn : 1 ≤ n)
    (h : Ledger P R ledger s.seen (live s (.executing p w)) (pending (.executing p w)) cut) :
    let s' := s.told A.recorded (P.scene q) w.frame .restored
    let stage' : Stage σ := .executing (P.reply q (.choose c)) { w with replay := [] }
    Ledger P R (ledger ++ (departed s s' stage').toList) s'.seen (live s' stage')
      (pending stage') cut := by
  obtain ⟨leg, legs, -, -, hsit⟩ := hg
  obtain ⟨-, e, below, -, hpath, -⟩ := stands_of_repeated hsit hw hr hp hn
  have hlog : (s.told A.recorded (P.scene q) w.frame .restored).listeners.2 =
    [⟨s.view (P.scene q) w.frame, .restored⟩] ++ s.listeners.2 := rfl
  simp only [live, pending, hw, hr, hpath] at h
  have ht := h.take
  simpa [departed_of_log hlog, Delivery.isPassage, Stage.goesOn, live, pending, hw, hpath]
    using ht

section Turns

variable [DecidableEq κ]

/-- A boundary of an execution is a state of the search once it has been entered. -/
lemma isNode_enter {s : Search L κ} {l : Place σ} {b : Boundary} {key : κ} (hl : P.Reaches l)
    (hb : P.At R l b (.ok key)) : IsNode P R (s.seenAfter key) (s.identify key) b.arity :=
  ⟨l, b, key, hl, hb, Search.getElem?_seenAfter_identify, rfl⟩

/-- A path that ends at a boundary keeps the ledger. -/
lemma halts_ledger {s s' : Search L κ} {scene : Scene} {top : Option FrameId} {b : Boundary}
    {key : κ} {l : Place σ} (hh : s.Halts A scene top b key s') (hr : P.Reaches l)
    (hb : P.At R l b (.ok key)) (hcut : s.depthLimit ≠ none → s'.constraint ≠ none → cut)
    (hl : Ledger P R ledger s.seen s.path false cut) :
    Ledger P R ledger s'.seen s'.path.tail false cut := by
  rw [hh.seen_eq, hh.path_eq, List.tail_cons]
  by_cases hk : key ∈ s.seen
  · rwa [Search.seenAfter, if_pos hk]
  · have hn := isNode_enter (s := s) hr hb
    rw [(Search.identify_of_not_mem hk).1] at hn
    rw [Search.seenAfter, if_neg hk] at hn ⊢
    refine hl.see key ?_
    cases hh with
    | matched h =>
      rcases h with h | rfl
      · exact absurd h hk
      · exact .inr hn
    | limited _ _ hd =>
      refine .inl (hcut (fun hnone => ?_) (by simp [Search.limited, Search.told, Search.notify]))
      simp [Search.reached, hnone] at hd

/-- A path that goes on from a boundary has its first alternative in the ledger. -/
lemma continues_ledger {s : Search L κ} {b : Boundary} {key : κ} {l : Place σ}
    (hc : s.Continues b key) (hr : P.Reaches l) (hb : P.At R l b (.ok key))
    (hb' : max b.options 1 = b.arity) (hl : Ledger P R ledger s.seen s.path false cut) :
    Ledger P R (ledger ++ [⟨s.identify key, b.options, 0⟩ :: s.path]) (s.seenAfter key)
      (⟨s.identify key, b.options, 0⟩ :: s.path) false cut := by
  have hn := isNode_enter (s := s) hr hb
  rw [(Search.identify_of_not_mem hc.unseen).1] at hn ⊢
  rw [Search.seenAfter, if_neg hc.unseen] at hn ⊢
  exact hl.enter key (hb' ▸ hn)

/-- A turn adds its departure to the ledger.

**Proof sketch.** The path goes on from a new boundary, or from the last choice when it has been
restored: these are the departures. A boundary at which the path ends is none of those kept on
the path, and going back closes them from the top. -/
theorem ledger_turn (hH : P.Honest) {s s' : Search (L × Log) κ} {stage stage' : Stage σ}
    (hR : HeedsAt P R A s stage) (hT : Turn P A.recorded s stage s' stage')
    (hg : Grounded P R s stage) (hcut : s.depthLimit ≠ none → s'.constraint ≠ none → cut)
    (h : Ledger P R ledger s.seen (live s stage) (pending stage) cut) :
    Ledger P R (ledger ++ (departed s s' stage').toList) s'.seen (live s' stage')
      (pending stage') cut := by
  cases hT with
  | begin =>
    rw [departed_of_not_goesOn rfl]
    simpa [live, pending] using h
  | launch => exact ledger_launch hg h
  | rest => exact ledger_silent rfl rfl rfl rfl h
  | drain hw | silent hw | effect hw | refuse hw | repeatInstruction hw =>
    exact ledger_silent rfl rfl rfl rfl h
  | @repeatChoice p q w n c rest hw hr hrest hp hn =>
    have hrest : rest.isEmpty = false := by simpa using hrest
    exact ledger_silent rfl rfl (by rfl) (by simp [pending, hr, hrest]) h
  | restore hw hr hp hn => exact ledger_restore hg hw hr hp hn h
  | @instruct p q w i hw hr hp hask =>
    rw [departed_instruct]
    simpa [live, pending, hw, hr] using h
  | @request t p q w i k hw hr hp hask ht hcont hk =>
    obtain ⟨l, -, hl, hb, -⟩ := hg.exists_requested hw hr hR hp hask hk
    have hpath : t.path = s.path := by simp [ht]
    have hseen : t.seen = s.seen := by simp [ht]
    rw [ledger_underway hw hr, ← hpath, ← hseen] at h
    have ht' := continues_ledger hcont hl hb rfl h
    rw [departed_of_log (requested_log ht _)]
    simpa [Delivery.isPassage, Search.arrival, Stage.goesOn, live, pending, hw, hr] using ht'
  | @requestHalt t _ p q w i k hw hr hp hask ht hhalt hk =>
    obtain ⟨l, -, hl, hb, -⟩ := hg.exists_requested hw hr hR hp hask hk
    have hpath : t.path = s.path := by simp [ht]
    have hseen : t.seen = s.seen := by simp [ht]
    have hlimit : t.depthLimit = s.depthLimit := by simp [ht]
    rw [ledger_underway hw hr, ← hpath, ← hseen] at h
    rw [departed_of_not_goesOn rfl]
    simpa [live, pending] using halts_ledger hhalt hl hb (hlimit ▸ hcut) h
  | @choose p q w n k hw hr hp hn hcont hk =>
    obtain ⟨l, -, hl, hb, -⟩ := hg.exists_choice hw hr hp hn hk
    have harity : max (Boundary.choice n.toNat).options 1 = (Boundary.choice n.toNat).arity := by
      simp only [Boundary.options, Boundary.arity]
      omega
    have hlog := Search.entered_log (A := A) (P.scene q) w.frame (.choice n.toNat) k s
    rw [ledger_underway hw hr] at h
    have ht' := continues_ledger hcont hl hb harity h
    rw [departed_of_log (hlog.trans (List.singleton_append).symm)]
    simpa [Delivery.isPassage, Search.arrival, Stage.goesOn, live, pending, hw, hr] using ht'
  | @chooseHalt _ p q w n k hw hr hp hn hhalt hk =>
    obtain ⟨l, -, hl, hb, -⟩ := hg.exists_choice hw hr hp hn hk
    rw [ledger_underway hw hr] at h
    rw [departed_of_not_goesOn rfl]
    simpa [live, pending] using halts_ledger hhalt hl hb hcut h
  | leave hp hf hw hs hleave =>
    have hstop := stopping_of_ended hH hg hp hw
    obtain ⟨l, rfl⟩ := hs.eq_recorded
    simp only [live, pending, hstop] at h
    obtain ⟨hoff, ht'⟩ := leaves_ledger hleave (by simpa using h)
    rw [departed_of_not_goesOn hoff]
    simpa using ht'
  | @finish t u _ _ p q w ending k hp hf hw he hi hr hs hu hleave hk =>
    obtain ⟨l, -, hl, hb, -⟩ := hg.exists_finished hw hr hp he hi hk
    obtain ⟨r, rfl⟩ := hs.eq_recorded
    have hpath : u.path = s.path := by simp [hu]
    have hseen : u.seen = s.seen := by simp [hu]
    have hlimit : u.depthLimit = s.depthLimit := by simp [hu]
    rw [ledger_underway hw hr, ← hpath, ← hseen] at h
    have hhalt : u.Halts A.recorded (P.scene q) none .finished k
        (u.entered A.recorded (P.scene q) none .finished k) := .matched (.inr rfl)
    have hv' := halts_ledger hhalt hl hb
      (fun hlimited hc => hcut (hlimit ▸ hlimited) (hleave.kept.2.2 ▸ hc)) h
    obtain ⟨hoff, ht'⟩ := leaves_ledger hleave hv'
    rw [departed_of_not_goesOn hoff]
    simpa using ht'

/-- The departures of an undisturbed run are a ledger at every moment, if only a limit that has been
hit counts as a reason to cut a path off.

**Proof sketch.** Induction on the number of moves: each of them is a turn. -/
theorem ledger_of_cut (hP : P.Deterministic) (hH : P.Honest) {name : String}
    {depthLimit maxStates : Option Int} {outside : Scene} {l : L}
    {x : Exploration σ (L × Log) κ} (hx : x = fresh name depthLimit maxStates outside l)
    (hR : Heeds P R A x) {n : Nat} (h : (after P A.recorded n x).Undisturbed)
    (hcut : ∀ m ≤ n, depthLimit ≠ none → (after P A.recorded m x).search.constraint ≠ none → cut) :
    (after P A.recorded n x).search.depthLimit = depthLimit ∧
      Ledger P R (departures P A n x) (after P A.recorded n x).search.seen
        (live (after P A.recorded n x).search (after P A.recorded n x).stage)
        (pending (after P A.recorded n x).stage) cut := by
  subst hx
  induction n with
  | zero => exact ⟨rfl, .empty _⟩
  | succ n ih =>
    have hn := undisturbed_of_le orderly_fresh (Nat.le_succ n) h
    obtain ⟨hlimit, hl⟩ := ih hn fun m hm => hcut m (Nat.le_succ_of_le hm)
    have hcut := hcut (n + 1) (Nat.le_refl _)
    rw [after_succ] at h hcut
    have hT := turn_of_undisturbed h
    rw [departures_succ, after_succ]
    exact ⟨hT.depthLimit_eq.trans hlimit,
      ledger_turn hH (hR n hn) hT (grounded_after hP hR hn)
        (fun hne => hcut (hlimit ▸ hne)) hl⟩

/-- The departures of an undisturbed run are a ledger at every moment. -/
theorem ledger_after (hP : P.Deterministic) (hH : P.Honest) {name : String}
    {depthLimit maxStates : Option Int} {outside : Scene} {l : L}
    {x : Exploration σ (L × Log) κ} (hx : x = fresh name depthLimit maxStates outside l)
    (hR : Heeds P R A x) {n : Nat} (h : (after P A.recorded n x).Undisturbed) :
    (after P A.recorded n x).search.depthLimit = depthLimit ∧
      Ledger P R (departures P A n x) (after P A.recorded n x).search.seen
        (live (after P A.recorded n x).search (after P A.recorded n x).stage)
        (pending (after P A.recorded n x).stage) (depthLimit ≠ none) :=
  ledger_of_cut hP hH hx hR h fun _ _ hlimited _ => hlimited

end Turns

end Exploration

end StateAtlas
