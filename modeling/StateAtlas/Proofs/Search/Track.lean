import StateAtlas.Proofs.Search.Act

set_option autoImplicit false

/-!
# The track of a search

Whatever becomes of a search, its log keeps track of it: the path that is read off the
announcements is the path of the search, every delivery names the state on top of it and its
length, and each state is entered for the first time from a state with a smaller number.

## Main definitions

* `StateAtlas.Log.advances`, `StateAtlas.Log.retreats` — how many boundaries have been announced as
  reached, and as left.
* `StateAtlas.Log.Aligned` — a delivery shows the path that has been announced.
* `StateAtlas.Log.entrance` — the state from which another one was announced first.
* `StateAtlas.Search.OnTrack` — a search whose log keeps track of it.

## Main results

* `StateAtlas.Exploration.onTrack_after` — every search is on track at every moment.
* `StateAtlas.Exploration.path_of_completed` — a search that nobody has ended and in which no
  listener has failed ends with an empty path.
-/

namespace StateAtlas

variable {σ L κ : Type}

/-- A delivery that announces a boundary. -/
def Delivery.isAdvance (d : Delivery) : Bool :=
  match d.notice with
  | .advanced => true
  | _ => false

/-- A delivery that announces that a boundary has been left. -/
def Delivery.isRetreat (d : Delivery) : Bool :=
  match d.notice with
  | .backtracked => true
  | _ => false

namespace Log

/-! ## Readings of a log -/

/-- The number of boundaries announced as reached. -/
def advances (log : Log) : Nat := log.countP Delivery.isAdvance

/-- The number of boundaries announced as left. -/
def retreats (log : Log) : Nat := log.countP Delivery.isRetreat

/-- The source of the first transition announced to a state. -/
def entrance (log : Log) (k : Nat) : Option Int :=
  ((edges log).reverse.find? fun e => e.2 = (k : Int)).map Prod.fst

/-- A delivery shows the path that has been announced with it: the state on top and the number of
boundaries, which are those that have been reached and not left. -/
structure Aligned (d : Delivery) (earlier : Log) : Prop where
  stateId : d.view.stateId = position (d :: earlier)
  depth : d.view.depth = (path (d :: earlier)).length
  balance : d.view.depth + retreats (d :: earlier) = advances (d :: earlier)

/-- The announcement of a boundary. -/
lemma cons_advanced {d : Delivery} (h : d.notice = .advanced) (log : Log) :
    path (d :: log) = d.view.stateId :: path log ∧
      edges (d :: log) = (position log, d.view.stateId) :: edges log ∧
      advances (d :: log) = advances log + 1 ∧ retreats (d :: log) = retreats log := by
  simp [path, edges, advances, retreats, Delivery.isAdvance, Delivery.isRetreat, h]

/-- The announcement of a retreat. -/
lemma cons_backtracked {d : Delivery} (h : d.notice = .backtracked) (log : Log) :
    path (d :: log) = (path log).tail ∧ edges (d :: log) = edges log ∧
      advances (d :: log) = advances log ∧ retreats (d :: log) = retreats log + 1 := by
  simp [path, edges, advances, retreats, Delivery.isAdvance, Delivery.isRetreat, h]

/-- Every other delivery leaves the path and the transitions as they are. -/
lemma cons_of_ne {d : Delivery} (ha : d.notice ≠ .advanced) (hb : d.notice ≠ .backtracked)
    (log : Log) : path (d :: log) = path log ∧ edges (d :: log) = edges log ∧
      advances (d :: log) = advances log ∧ retreats (d :: log) = retreats log := by
  cases hd : d.notice <;>
    simp_all [path, edges, advances, retreats, Delivery.isAdvance, Delivery.isRetreat]

/-- The path leads to the boundary announced last. -/
lemma position_advanced {d : Delivery} (h : d.notice = .advanced) (log : Log) :
    position (d :: log) = d.view.stateId := by
  rw [position, (cons_advanced h log).1]
  rfl

/-- Where neither a boundary nor a retreat is announced the path leads where it did. -/
lemma position_of_ne {d : Delivery} (ha : d.notice ≠ .advanced) (hb : d.notice ≠ .backtracked)
    (log : Log) : position (d :: log) = position log := by
  rw [position, (cons_of_ne ha hb log).1, ← position]

/-- Only the announcement of a boundary adds a transition. -/
lemma edges_of_ne {d : Delivery} (h : d.notice ≠ .advanced) (log : Log) :
    edges (d :: log) = edges log := by
  cases hd : d.notice <;> simp_all [edges]

/-- There is one transition for each boundary announced as reached. -/
lemma length_edges (log : Log) : (edges log).length = advances log := by
  induction log with
  | nil => rfl
  | cons d log ih =>
    by_cases h : d.notice = .advanced
    · obtain ⟨-, he, ha, -⟩ := cons_advanced h log
      rw [he, ha, List.length_cons, ih]
    · have ha : advances (d :: log) = advances log := by
        cases hd : d.notice <;> simp_all [advances, Delivery.isAdvance]
      rw [edges_of_ne h, ha, ih]

/-- The transitions in the order of their announcement: those of an earlier moment come first. -/
lemma edges_suffix {log log' : Log} (h : log <:+ log') :
    (edges log).reverse <+: (edges log').reverse := by
  obtain ⟨new, rfl⟩ := h
  induction new with
  | nil => exact List.prefix_refl _
  | cons d new ih =>
    by_cases hd : d.notice = .advanced
    · rw [List.cons_append, (cons_advanced hd _).2.1, List.reverse_cons]
      exact ih.trans (List.prefix_append _ _)
    · rwa [List.cons_append, edges_of_ne hd]

/-- The transition of a boundary has as many before it as boundaries had been announced. -/
lemma getElem?_edges {log earlier : Log} {d : Delivery} (h : d :: earlier <:+ log)
    (hd : d.notice = .advanced) :
    (edges log).reverse[advances earlier]? = some (position earlier, d.view.stateId) := by
  have hpre := edges_suffix h
  rw [(cons_advanced hd _).2.1, List.reverse_cons] at hpre
  obtain ⟨rest, hrest⟩ := hpre
  rw [← hrest, List.append_assoc, ← length_edges, ← List.length_reverse,
    List.getElem?_append_right (Nat.le_refl _)]
  simp

end Log

/-! ## Searches on track -/

namespace Search

/-- The log of a search keeps track of it. -/
structure OnTrack (s : Search (L × Log) κ) : Prop where
  path : Log.path s.listeners.2 = s.path.map fun e => (e.state : Int)
  stateId : s.stateId = topState s.path
  known : ∀ e ∈ s.path, e.state < s.seen.size
  balance : s.path.length + Log.retreats s.listeners.2 = Log.advances s.listeners.2
  said : ∀ d earlier, d :: earlier <:+ s.listeners.2 → Log.Aligned d earlier
  targets : ∀ e ∈ Log.edges s.listeners.2, ∃ i < s.seen.size, e.2 = (i : Int)
  entrance : ∀ k < s.seen.size, ∃ p, Log.entrance s.listeners.2 k = some p ∧ -1 ≤ p ∧ p < k

variable {A : Audience L} {s : Search (L × Log) κ}

namespace OnTrack

/-- The state that has been announced last is that of the search. -/
lemma position (h : s.OnTrack) : Log.position s.listeners.2 = topState s.path := by
  rw [Log.position, h.path]
  cases s.path <;> rfl

/-- The state on top of the path is the initial one or has been seen. -/
lemma topState_bounds (h : s.OnTrack) : -1 ≤ topState s.path ∧ topState s.path < s.seen.size := by
  have hk := h.known
  cases hp : s.path with
  | nil => simp only [topState, initialStateId]; omega
  | cons e below =>
    have hlt := hk e (by rw [hp]; exact List.mem_cons_self)
    simp only [topState]
    omega

/-- What the path, the states and the log do not show is no concern of the track. -/
lemma keep {t : Search (L × Log) κ} (h : s.OnTrack)
    (hpath : t.path.map PathEntry.state = s.path.map PathEntry.state)
    (hid : t.stateId = s.stateId) (hseen : t.seen = s.seen)
    (hlog : t.listeners.2 = s.listeners.2) : t.OnTrack := by
  have htop : topState t.path = topState s.path := by
    revert hpath
    cases t.path <;> cases s.path <;> simp +contextual [topState]
  have hlen : t.path.length = s.path.length := by simpa using congrArg List.length hpath
  have hstates : t.path.map (fun e => (e.state : Int)) = s.path.map fun e => (e.state : Int) := by
    have hmap := congrArg (List.map fun i : Nat => (i : Int)) hpath
    rwa [List.map_map, List.map_map] at hmap
  refine ⟨by rw [hlog, hstates, h.path], by rw [hid, htop, h.stateId], ?_,
    by rw [hlog, hlen, h.balance], hlog ▸ h.said, hlog ▸ hseen ▸ h.targets,
    hlog ▸ hseen ▸ h.entrance⟩
  intro e he
  obtain ⟨e', he', hs⟩ := List.mem_map.mp (hpath ▸ List.mem_map_of_mem he)
  rw [hseen, ← hs]
  exact h.known e' he'

/-- A delivery that shows the path of the search after it. -/
lemma aligned_cons {t : Search (L × Log) κ} {d : Delivery} {earlier : Log}
    (hlog : t.listeners.2 = d :: earlier) (hid : d.view.stateId = topState t.path)
    (hdepth : d.view.depth = t.path.length)
    (hpath : Log.path t.listeners.2 = t.path.map fun e => (e.state : Int))
    (hbalance : t.path.length + Log.retreats t.listeners.2 = Log.advances t.listeners.2)
    (hsaid : ∀ d earlier', d :: earlier' <:+ earlier → Log.Aligned d earlier') :
    ∀ d earlier, d :: earlier <:+ t.listeners.2 → Log.Aligned d earlier := by
  intro d' earlier' hd
  rw [hlog] at hd hpath hbalance
  rcases List.suffix_cons_iff.mp hd with heq | hd
  · obtain ⟨rfl, rfl⟩ := List.cons.inj heq
    refine ⟨?_, by rw [hpath, List.length_map, hdepth], by rw [hdepth, hbalance]⟩
    rw [hid, Log.position, hpath]
    cases t.path <;> rfl
  · exact hsaid d' earlier' hd

/-- A notice that announces neither a boundary nor a retreat. -/
lemma told (h : s.OnTrack) (scene : Scene) (top : Option FrameId) {n : Notice}
    (ha : n ≠ .advanced) (hb : n ≠ .backtracked) : (s.told A.recorded scene top n).OnTrack := by
  obtain ⟨hpath, hedges, hadv, hret⟩ :=
    Log.cons_of_ne (d := ⟨s.view scene top, n⟩) ha hb s.listeners.2
  have htrack : Log.path (s.told A.recorded scene top n).listeners.2 =
      s.path.map fun e => (e.state : Int) := hpath.trans h.path
  have hbalance : s.path.length + Log.retreats (s.told A.recorded scene top n).listeners.2 =
      Log.advances (s.told A.recorded scene top n).listeners.2 := by
    rw [told_log, hadv, hret]
    exact h.balance
  refine ⟨htrack, h.stateId, h.known, hbalance,
    aligned_cons (told_log A scene top n s) h.stateId rfl htrack hbalance h.said, ?_, ?_⟩
  · rw [told_log, hedges]
    exact h.targets
  · intro k hk
    rw [told_log, Log.entrance, hedges]
    exact h.entrance k hk

/-- A state is entered for the first time where it was before, or from the last boundary of the path
if it is new. -/
lemma entrance_enter [DecidableEq κ] (h : s.OnTrack) (key : κ) {k : Nat}
    (hk : k < (s.seenAfter key).size) :
    ∃ p, (((topState s.path, (s.identify key : Int)) :: Log.edges s.listeners.2).reverse.find?
        fun e => e.2 = (k : Int)).map Prod.fst = some p ∧ -1 ≤ p ∧ p < (k : Int) := by
  rw [List.reverse_cons, List.find?_append]
  by_cases hold : k < s.seen.size
  · obtain ⟨p, hp, hlow, hhigh⟩ := h.entrance k hold
    obtain ⟨e, he, rfl⟩ := Option.map_eq_some_iff.mp hp
    exact ⟨e.1, by rw [he]; rfl, hlow, hhigh⟩
  · -- the new state has not been announced before
    have hk' : key ∉ s.seen := fun hmem => hold (by rwa [seenAfter, if_pos hmem] at hk)
    have hnew := (identify_of_not_mem hk').1
    rw [seenAfter, if_neg hk', Array.size_push] at hk
    obtain rfl : k = s.seen.size := by omega
    have hnone : (Log.edges s.listeners.2).reverse.find? (fun e => e.2 = (s.seen.size : Int)) =
        none := by
      rw [List.find?_eq_none]
      intro e he heq
      obtain ⟨i, hi, hei⟩ := h.targets e (List.mem_reverse.mp he)
      simp only [hei, decide_eq_true_eq] at heq
      omega
    rw [hnone, hnew]
    exact ⟨topState s.path, by simp, h.topState_bounds⟩

/-- A boundary that is announced. Its state is entered from the one below, and for the first time if
it is new. -/
lemma entered [DecidableEq κ] (h : s.OnTrack) (scene : Scene) (top : Option FrameId) (b : Boundary)
    (key : κ) : (s.entered A.recorded scene top b key).OnTrack := by
  have hid := arrival_stateId s scene top b key
  obtain ⟨hpath, hedges, hadv, hret⟩ :=
    Log.cons_advanced (d := s.arrival scene top b key) rfl s.listeners.2
  rw [hid] at hpath hedges
  have hlt : s.identify key < (s.seenAfter key).size :=
    (Array.getElem?_eq_some_iff.mp (getElem?_seenAfter_identify (s := s))).1
  have hgrows : s.seen.size ≤ (s.seenAfter key).size := by
    rw [seenAfter]
    split <;> simp
  have htrack : Log.path (s.entered A.recorded scene top b key).listeners.2 =
      (s.entered A.recorded scene top b key).path.map fun e => (e.state : Int) := by
    rw [entered_log, entered_path, hpath, h.path]
    rfl
  have hbalance : (s.entered A.recorded scene top b key).path.length +
      Log.retreats (s.entered A.recorded scene top b key).listeners.2 =
        Log.advances (s.entered A.recorded scene top b key).listeners.2 := by
    have hb := h.balance
    rw [entered_log, entered_path, hadv, hret, List.length_cons]
    omega
  refine ⟨htrack, ?_, ?_, hbalance,
    aligned_cons (entered_log A scene top b key s) ?_ ?_ htrack hbalance h.said, ?_, ?_⟩
  · simp [Search.entered, enter_eq, topState]
  · intro e he
    rw [entered_path] at he
    rw [entered_seen]
    rcases List.mem_cons.mp he with rfl | he
    · exact hlt
    · exact Nat.lt_of_lt_of_le (h.known e he) hgrows
  · rw [hid, entered_path]
    rfl
  · simp [arrival, view, depth, enter_eq]
  · intro e he
    rw [entered_log, hedges] at he
    rw [entered_seen]
    rcases List.mem_cons.mp he with rfl | he
    · exact ⟨_, hlt, rfl⟩
    · obtain ⟨i, hi, hei⟩ := h.targets e he
      exact ⟨i, Nat.lt_of_lt_of_le hi hgrows, hei⟩
  · intro k hk
    rw [entered_seen] at hk
    rw [entered_log, Log.entrance, hedges, h.position]
    exact h.entrance_enter key hk

/-- A boundary that is left. -/
lemma popped (h : s.OnTrack) {e : PathEntry} {rest : List PathEntry} (hp : s.path = e :: rest) :
    (s.popped A.recorded rest).OnTrack := by
  obtain ⟨hpath, hedges, hadv, hret⟩ := Log.cons_backtracked
    (d := ⟨(s.back rest).view s.outside none, .backtracked⟩) rfl s.listeners.2
  have htrack : Log.path (s.popped A.recorded rest).listeners.2 =
      rest.map fun e => (e.state : Int) := by
    rw [popped_log, hpath, h.path, hp]
    rfl
  have hbalance : rest.length + Log.retreats (s.popped A.recorded rest).listeners.2 =
      Log.advances (s.popped A.recorded rest).listeners.2 := by
    have hb := h.balance
    rw [hp, List.length_cons] at hb
    rw [popped_log, hadv, hret]
    omega
  refine ⟨htrack, rfl, fun e' he' => h.known e' (by rw [hp]; exact List.mem_cons_of_mem _ he'),
    hbalance, aligned_cons (popped_log s rest) rfl rfl htrack hbalance h.said, ?_, ?_⟩
  · rw [popped_log, hedges]
    exact h.targets
  · intro k hk
    rw [popped_log, Log.entrance, hedges]
    exact h.entrance k hk

end OnTrack

variable [DecidableEq κ]

/-- Every act keeps a search on track. -/
lemma OnTrack.act {x y : Search (L × Log) κ × Phase} (ha : Act A.recorded x y)
    (h : x.1.OnTrack) : y.1.OnTrack := by
  cases ha with
  | report => exact h.keep rfl rfl rfl rfl
  | note => exact h.keep rfl rfl rfl rfl
  | begin hn | conclude hn | execute hn | restore _ hn | finish hn =>
    obtain rfl := eq_told _ hn
    exact h.told _ _ (by simp) (by simp)
  | @reach s t scene top b key previous r hadv =>
    have hentered := h.entered (A := A) scene top b key
    rcases advance_eq hadv with ⟨rfl, -⟩ | ⟨limit, flag, -, -, rfl⟩
    · exact hentered
    · have hhit : ({ s.entered A.recorded scene top b key with constraint := some limit } :
          Search (L × Log) κ).OnTrack := hentered.keep rfl rfl rfl rfl
      exact (hhit.told (A := A) scene top (by simp) (by simp)).keep rfl rfl rfl rfl
  | retreat hp _ hn =>
    obtain rfl := eq_told _ hn
    exact h.popped hp
  | turn hp => exact h.keep (by simp [hp, PathEntry.nextChoice]) rfl rfl rfl
  | _ => exact h

end Search

namespace Exploration

variable {P : Program σ κ} {A : Audience L} [DecidableEq κ]

section Fresh

variable {name : String} {depthLimit maxStates : Option Int} {outside : Scene} {l : L}

variable (P A name depthLimit maxStates outside l) in
/-- Every search is on track at every moment. -/
theorem onTrack_after (n : Nat) :
    (after P A.recorded n (fresh name depthLimit maxStates outside l)).search.OnTrack :=
  let Holds (y : Search (L × Log) κ × Phase) : Prop := y.1.OnTrack
  have hstart : Holds
      ((fresh name depthLimit maxStates outside l : Exploration σ _ κ).search, .waiting) :=
    ⟨rfl, rfl, by simp [fresh, ofSearch, Search.new], rfl, by simp [fresh, ofSearch, Search.new],
      by simp [fresh, ofSearch, Search.new, Log.edges], by simp [fresh, ofSearch, Search.new]⟩
  invariant_after (A := A.recorded) (P := P) orderly_fresh hstart
    (fun ha h => Search.OnTrack.act ha h) n

end Fresh

/-! ## The end of a search -/

omit [DecidableEq κ] in
/-- A search that has gone back as far as it can has no path left. -/
lemma path_of_done {s t : Search L κ} {r : Retreat} (h : s.Retreats A t r) (hr : r = .done) :
    t.path = [] := by
  induction h with
  | idle hp => exact hp
  | last => rfl
  | resume => simp at hr
  | further _ _ _ ih => exact ih hr

omit [DecidableEq κ] in
/-- A search that is over when it has left a path has no path left. -/
lemma Leaves.path_eq_nil {s t : Search L κ} {stage : Stage σ} (h : Leaves A s t stage) {e : Exit}
    (he : stage = .ended e) : t.path = [] := by
  cases h with
  | resume => simp at he
  | done hr =>
    rw [Search.told_path]
    exact path_of_done hr rfl

/-- A turn that ends a search leaves it without a path. -/
lemma path_turn {s s' : Search L κ} {stage stage' : Stage σ} (hT : Turn P A s stage s' stage')
    (h : ∀ e, stage = .ended e → s.path = []) : ∀ e, stage' = .ended e → s'.path = [] := by
  intro e he
  cases hT with
  | rest => exact h _ rfl
  | leave _ _ _ _ hl => exact hl.path_eq_nil he
  | finish _ _ _ _ _ _ _ _ hl => exact hl.path_eq_nil he
  | _ => simp at he

/-- A search that nobody has ended and in which no listener has failed ends with an empty path.

**Proof sketch.** Induction on the number of moves: the turn that ends the search has gone back as
far as it could. -/
theorem path_of_completed {x : Exploration σ L κ} (ho : x.stage.Orderly)
    (hx : ∀ e, x.stage = .ended e → x.search.path = []) {n : Nat}
    (h : (after P A n x).Undisturbed) {e : Exit} (he : (after P A n x).stage = .ended e) :
    (after P A n x).search.path = [] := by
  induction n generalizing e with
  | zero => exact hx e he
  | succ n ih =>
    have hn := undisturbed_of_le ho (Nat.le_succ n) h
    rw [after_succ] at h he ⊢
    exact path_turn (turn_of_undisturbed h) (fun e he => ih hn he) e he

end Exploration

end StateAtlas
