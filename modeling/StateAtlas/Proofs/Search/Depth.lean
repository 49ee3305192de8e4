import StateAtlas.Proofs.Search.Completeness
import StateAtlas.Proofs.Search.Expansion

set_option autoImplicit false

/-!
# Searches with a limit on the depth

A limit on the depth cuts a path off at a state that is met there for the first time. The state is
known from then on, and it is not expanded either when it is met again nearer to the start. What is
lost are the states that can be reached through such a state alone: a sequence of choices that
leads through no state that was cut off leads to states that have been found, however many
boundaries there are on it.

## Main definitions

* `StateAtlas.Program.Way` — the boundaries that a sequence of choices leads through.
* `StateAtlas.Log.CutAt` — a state was met for the first time at the limit.
* `StateAtlas.Search.Shallow` — a search has not gone deeper than the limit.

## Main results

* `StateAtlas.Program.At.exists_way` — every boundary lies on a way.
* `StateAtlas.Exploration.shallow_after` — a search never goes deeper than the limit.
* `StateAtlas.Exploration.depth_bounded_completeness` — what a search with a limit on the depth
  has found when it returns.
-/

namespace StateAtlas

variable {σ L κ : Type}

/-! ## Ways -/

namespace Program

variable (P : Program σ κ) (R : Place σ → Bool → Prop)

/-- The boundaries that a sequence of choices leads through: the place and the kind of the last one
with what comes of making its fingerprint, and what has come of making the fingerprints of those
before it, the last one first. -/
inductive Way : Place σ → Boundary → Except Fault κ → List (Except Fault κ) → Prop
  | first {l : Place σ} {b : Boundary} {r : Except Fault κ}
      (hcalm : Relation.ReflTransGen (P.Calm R) (P.startPlace 0) l) (hb : P.At R l b r) :
      Way l b r []
  | next {l m : Place σ} {b b' : Boundary} {r r' : Except Fault κ} {rs : List (Except Fault κ)}
      {a : Nat} (h : Way l b r rs) (hleg : P.Leg R l a m) (hb : P.At R m b' r') :
      Way m b' r' (r :: rs)

variable {P R}

/-- A way is a part of an execution, and ends at a boundary. -/
lemma Way.reaches {l : Place σ} {b : Boundary} {r : Except Fault κ} {rs : List (Except Fault κ)}
    (h : P.Way R l b r rs) : P.Reaches l ∧ P.At R l b r := by
  induction h with
  | first hcalm hb => exact ⟨hcalm.lift id fun _ _ h => h.onward, hb⟩
  | next _ hleg hb ih => exact ⟨ih.1.trans hleg.onward, hb⟩

/-- An execution departs from a boundary along one of its alternatives. -/
lemma Departs.lt_arity {l m : Place σ} {b : Boundary} {r : Except Fault κ} {a : Nat}
    (h : P.Departs l a m) (hb : P.At R l b r) : a < b.arity := by
  cases h with
  | choice h a ha =>
    cases hb with
    | choice h' _ =>
      obtain ⟨rfl, -⟩ := Move.choice.inj (h.symm.trans h')
      simp only [Boundary.arity]
      omega
    | requested h' => simp [h] at h'
    | finished h' => simp [h] at h'
  | requested h =>
    cases hb with
    | choice h' => simp [h] at h'
    | requested => exact Nat.zero_lt_one
    | finished h' => simp [h] at h'

/-- Every boundary lies on a way.

**Proof sketch.** Every place of every execution lies before the first boundary, or on a leg from
the last boundary of a way; this goes by induction on the execution. -/
theorem At.exists_way (hR : ∀ l, R l true ∨ R l false) {l : Place σ} {b : Boundary}
    {r : Except Fault κ} (hl : P.Reaches l) (h : P.At R l b r) : ∃ rs, P.Way R l b r rs := by
  -- where a place lies
  let Covered (l : Place σ) : Prop := Relation.ReflTransGen (P.Calm R) (P.startPlace 0) l ∨
    ∃ l' b r rs a, P.Way R l' b r rs ∧ P.Leg R l' a l
  have way_of_covered : ∀ {l b r}, Covered l → P.At R l b r → ∃ rs, P.Way R l b r rs := by
    rintro l b r (hcalm | ⟨l', b', r', rs, a, hway, hleg⟩) hb
    · exact ⟨[], .first hcalm hb⟩
    · exact ⟨r' :: rs, hway.next hleg hb⟩
  have covered : ∀ {l}, P.Reaches l → Covered l := by
    intro l hl
    induction hl with
    | refl => exact .inl .refl
    | @tail l m _ ho ih =>
      rcases ho.calm_or_departs hR with hc | ⟨b, r, a, -, hb, hd⟩
      · rcases ih with hcalm | ⟨l', b, r, rs, a, hway, l'', hd, hcalm⟩
        · exact .inl (hcalm.tail hc)
        · exact .inr ⟨l', b, r, rs, a, hway, l'', hd, hcalm.tail hc⟩
      · obtain ⟨rs, hway⟩ := way_of_covered ih hb
        exact .inr ⟨l, b, r, rs, a, hway, m, hd, .refl⟩
  exact way_of_covered (covered hl) h

end Program

/-! ## Depth -/

/-- The state of a number was met for the first time at a depth. -/
def Log.CutAt (log : Log) (d i : Nat) : Prop :=
  ∃ x ∈ log, x.notice = .advanced ∧ x.view.isNew = true ∧ x.view.depth = d ∧ x.view.stateId = i

/-- A state stays cut off. -/
lemma Log.CutAt.append {log : Log} {d i : Nat} (h : Log.CutAt log d i) (new : Log) :
    Log.CutAt (new ++ log) d i := by
  obtain ⟨x, hx, h⟩ := h
  exact ⟨x, List.mem_append_right _ hx, h⟩

namespace Search

variable {A : Audience L} {d : Nat} {s : Search (L × Log) κ}

/-- The path of a search, and every path that it has told of, has at most `d` boundaries. -/
structure Shallow (d : Nat) (s : Search (L × Log) κ) : Prop where
  path : s.path.length ≤ d
  said : ∀ x ∈ s.listeners.2, x.view.depth ≤ d

namespace Shallow

/-- A notice tells of the path as it is. -/
lemma told (h : s.Shallow d) (scene : Scene) (top : Option FrameId) (n : Notice) :
    (s.told A.recorded scene top n).Shallow d :=
  ⟨h.path, List.forall_mem_cons.mpr ⟨h.path, h.said⟩⟩

/-- The rest of a path is no longer than the path. -/
lemma popped (h : s.Shallow d) {e : PathEntry} {rest : List PathEntry} (hp : s.path = e :: rest) :
    (s.popped A.recorded rest).Shallow d := by
  have hrest : rest.length ≤ d := by
    have hlen := h.path
    rw [hp, List.length_cons] at hlen
    omega
  have hback : (s.back rest).Shallow d := ⟨hrest, h.said⟩
  exact hback.told _ _ _

/-- Going back leads to a path with room for another boundary, as long as there is room below the
last one. -/
lemma retreats {t : Search (L × Log) κ} {r : Retreat} (hr : s.Retreats A.recorded t r) :
    s.Shallow d → s.path.tail.length < d → t.Shallow d ∧ t.path.length < d := by
  induction hr with
  | idle hp =>
    intro h hroom
    rw [hp] at hroom ⊢
    exact ⟨h, hroom⟩
  | last hp =>
    intro h hroom
    rw [hp] at hroom
    exact ⟨h.popped hp, hroom⟩
  | resume hp _ =>
    intro h hroom
    rw [hp] at hroom
    have hpop := h.popped (A := A) hp
    exact ⟨⟨hpop.path, hpop.said⟩, hroom⟩
  | further hp _ _ ih =>
    intro h hroom
    rw [hp] at hroom
    exact ih (h.popped hp) (Nat.lt_of_succ_lt hroom)

section Boundaries

variable [DecidableEq κ]

/-- A boundary is told of on top of the path. -/
lemma entered (h : s.Shallow d) (hroom : s.path.length < d) (scene : Scene)
    (top : Option FrameId) (b : Boundary) (key : κ) :
    (s.entered A.recorded scene top b key).Shallow d := by
  have henter : (s.enter b key).Shallow d := by
    rw [enter_eq]
    exact ⟨hroom, h.said⟩
  exact henter.told _ _ _

/-- A path that halts at a boundary has room below it. -/
lemma halts (h : s.Shallow d) (hroom : s.path.length < d) {scene : Scene} {top : Option FrameId}
    {b : Boundary} {key : κ} {s' : Search (L × Log) κ}
    (hh : s.Halts A.recorded scene top b key s') : s'.Shallow d ∧ s'.path.tail.length < d := by
  refine ⟨?_, by rwa [hh.path_eq]⟩
  have hentered := h.entered (A := A) hroom scene top b key
  cases hh with
  | matched => exact hentered
  | limited =>
    have hhit : ({ s.entered A.recorded scene top b key with constraint := some "depth" } :
        Search (L × Log) κ).Shallow d := ⟨hentered.path, hentered.said⟩
    exact hhit.told _ _ _

end Boundaries

end Shallow

variable [DecidableEq κ]

omit [DecidableEq κ] in
/-- A path that goes on from a boundary has room for another one. -/
lemma Continues.room {b : Boundary} {key : κ} (h : s.Continues b key)
    (hd : s.depthLimit = some (d : Int)) : s.path.length + 1 < d := by
  have hshallow := h.shallow
  rw [hd] at hshallow
  have hlt : ¬(d : Int) ≤ (s.path.length + 1 : Nat) := of_decide_eq_false hshallow
  omega

/-- A new boundary at which a path halts is an end state, or it is cut off at the limit. -/
lemma Halts.cut {scene : Scene} {top : Option FrameId} {b : Boundary} {key : κ}
    {s' : Search (L × Log) κ} (h : s.Halts A.recorded scene top b key s') (hk : key ∉ s.seen)
    (hd : s.depthLimit = some (d : Int)) (hroom : s.path.length < d) :
    b = .finished ∨ s'.listeners.2.CutAt d (s.identify key) := by
  cases h with
  | matched h => exact .inl (h.resolve_left hk)
  | limited _ _ hlimit =>
    rw [hd] at hlimit
    have hle : (d : Int) ≤ (s.path.length + 1 : Nat) := of_decide_eq_true hlimit
    have hdepth : (s.arrival scene top b key).view.depth = s.path.length + 1 := by
      simp [arrival, view, depth, enter_eq]
    refine .inr ⟨s.arrival scene top b key, ?_, rfl, by simpa using hk, by omega, by simp⟩
    rw [Search.limited, told_log, entered_log]
    exact List.mem_cons_of_mem _ List.mem_cons_self

end Search

/-! ## What becomes of a state -/

section Fates

variable (P : Program σ κ) (R : Place σ → Bool → Prop)

/-- What becomes of a state that has been seen: it is an end state, the program goes on from it, or
it is cut off. -/
def Fate (d : Nat) (ledger : List (List PathEntry)) (seen : Array κ) (log : Log) (i : Nat) : Prop :=
  IsNode P R seen i 0 ∨ departuresFrom ledger i ≠ [] ∨ Log.CutAt log d i

variable {P R} {d : Nat} {ledger : List (List PathEntry)} {seen : Array κ} {log : Log} {i : Nat}

/-- What has become of a state stays so. -/
lemma Fate.append {seen' : Array κ} (h : Fate P R d ledger seen log i)
    (hs : ∀ {i : Nat} {k : κ}, seen[i]? = some k → seen'[i]? = some k)
    (more : List (List PathEntry)) (new : Log) :
    Fate P R d (ledger ++ more) seen' (new ++ log) i := by
  rcases h with ⟨l, b, k, hl, hb, hk, hn⟩ | hd | hc
  · exact .inl ⟨l, b, k, hl, hb, hs hk, hn⟩
  · refine .inr (.inl ?_)
    rw [departuresFrom, List.filter_append]
    exact List.append_ne_nil_of_left_ne_nil hd _
  · exact .inr (.inr (hc.append new))

/-- After a boundary it is known what has become of all states, if it is known of its own. -/
lemma fates_seenAfter [DecidableEq κ] {s : Search L κ}
    (h : ∀ i < s.seen.size, Fate P R d ledger s.seen log i) {key : κ}
    {more : List (List PathEntry)} {new : Log}
    (hnew : key ∉ s.seen →
      Fate P R d (ledger ++ more) (s.seenAfter key) (new ++ log) (s.identify key)) :
    ∀ i < (s.seenAfter key).size,
      Fate P R d (ledger ++ more) (s.seenAfter key) (new ++ log) i := by
  intro i hi
  have keep : i < s.seen.size →
      Fate P R d (ledger ++ more) (s.seenAfter key) (new ++ log) i := fun hi =>
    (h i hi).append Search.getElem?_seenAfter more new
  by_cases hk : key ∈ s.seen
  · rw [Search.seenAfter, if_pos hk] at hi
    exact keep hi
  · rw [Search.seenAfter, if_neg hk, Array.size_push] at hi
    rcases Nat.lt_succ_iff_lt_or_eq.mp hi with hi | rfl
    · exact keep hi
    · have hn := hnew hk
      rwa [(Search.identify_of_not_mem hk).1] at hn

end Fates

namespace Exploration

variable {P : Program σ κ} {R : Place σ → Bool → Prop} {A : Audience L} {d : Nat}

/-- The announcement of the last instruction tells of the path as it is. -/
lemma concluded_shallow {s : Search (L × Log) κ} (h : s.Shallow d) (scene : Scene)
    (top : Option FrameId) (previous next : Option Instruction) :
    (concluded A.recorded s scene top previous next).Shallow d := by
  cases previous with
  | none => exact h
  | some e =>
    have hu : s.unasked.Shallow d := ⟨h.path, h.said⟩
    exact hu.told _ _ _

/-- A path that is left has room below its last boundary. -/
lemma leaves_shallow {s t : Search (L × Log) κ} {stage : Stage σ}
    (hl : Leaves A.recorded s t stage) (h : s.Shallow d) (hroom : s.path.tail.length < d) :
    t.Shallow d ∧ (live t stage).length < d := by
  have hc : ({ s with paths := s.paths + 1 } : Search (L × Log) κ).Shallow d := ⟨h.path, h.said⟩
  cases hl with
  | resume hr => exact hc.retreats hr hroom
  | done hr =>
    obtain ⟨ht, -⟩ := hc.retreats hr hroom
    exact ⟨ht.told _ _ _, Nat.zero_lt_of_lt hroom⟩

section Turns

variable [DecidableEq κ]

/-- A turn keeps a search shallow: there is room for another boundary as long as the path has not
halted, and below the last one when it has. -/
lemma shallow_turn {s s' : Search (L × Log) κ} {stage stage' : Stage σ}
    (hT : Turn P A.recorded s stage s' stage') (hd : s.depthLimit = some (d : Int))
    (h : s.Shallow d) (hroom : (live s stage).length < d) :
    s'.Shallow d ∧ (live s' stage').length < d := by
  have concludes : ∀ {t : Search (L × Log) κ} scene top previous next, t.Shallow d →
      (concluded A.recorded t scene top previous next).unasked.Shallow d :=
    fun scene top previous next ht => by
      have hc := concluded_shallow (A := A) ht scene top previous next
      exact ⟨hc.path, hc.said⟩
  cases hT with
  | begin => exact ⟨h.told _ _ _, hroom⟩
  | launch => exact ⟨⟨h.path, h.said⟩, hroom⟩
  | restore hw => exact ⟨h.told _ _ _, by simpa [live, hw] using hroom⟩
  | instruct hw =>
    exact ⟨(concluded_shallow h _ _ _ _).told _ _ _, by simpa [live, hw] using hroom⟩
  | request hw hr hp ha ht hc hk =>
    have hlt := hc.room (d := d) (by simpa [ht] using hd)
    have ht := ht ▸ concludes _ _ _ _ h
    refine ⟨(ht.entered (by omega) _ _ _ _).told _ _ _, ?_⟩
    simpa [live, hw] using hlt
  | @requestHalt t s' p q w i k hw hr hp ha ht hh hk =>
    have hpath : t.path = s.path := by simp [ht]
    have hlt : t.path.length < d := by simpa [live, hw, hpath] using hroom
    exact (ht ▸ concludes _ _ _ _ h).halts hlt hh
  | choose hw hr hp hn hc hk =>
    have hlt := hc.room hd
    exact ⟨h.entered (by omega) _ _ _ _, by simpa [live, hw] using hlt⟩
  | chooseHalt hw hr hp hn hh hk =>
    exact h.halts (by simpa [live, hw] using hroom) hh
  | leave hp hf hw hs hl =>
    obtain ⟨l, rfl⟩ := hs.eq_recorded
    refine leaves_shallow hl ⟨h.path, h.said⟩ (Nat.lt_of_le_of_lt ?_ hroom)
    simp only [live]
    split <;> simp
  | @finish t u _ _ p q w ending k hp hf hw he hi hr hs hu hl hk =>
    obtain ⟨l, rfl⟩ := hs.eq_recorded
    have hpath : u.path = s.path := by simp [hu]
    have hlt : u.path.length < d := by simpa [live, hw, hpath] using hroom
    have hstate : ({ s with listeners := (l, s.listeners.2) } : Search (L × Log) κ).Shallow d :=
      ⟨h.path, h.said⟩
    have hentered := (hu ▸ concludes _ _ _ _ hstate : u.Shallow d).entered (A := A) hlt
      (P.scene q) none .finished k
    exact leaves_shallow hl hentered (by simpa using hlt)
  | _ => exact ⟨h, hroom⟩

/-- A boundary at which the path halts: it is an end state, or cut off at the limit. -/
lemma fates_halts {s s' : Search (L × Log) κ} {ledger : List (List PathEntry)} {log : Log}
    {scene : Scene} {top : Option FrameId} {b : Boundary} {key : κ} {l : Place σ}
    (hh : s.Halts A.recorded scene top b key s') (hd : s.depthLimit = some (d : Int))
    (hroom : s.path.length < d) (hl : P.Reaches l) (hb : P.At R l b (.ok key))
    (h : ∀ i < s.seen.size, Fate P R d ledger s.seen log i) {new : Log}
    (hlog : s'.listeners.2 = new ++ log) :
    ∀ i < s'.seen.size, Fate P R d ledger s'.seen s'.listeners.2 i := by
  have hown : key ∉ s.seen →
      Fate P R d (ledger ++ []) (s.seenAfter key) (new ++ log) (s.identify key) := by
    intro hk
    rcases hh.cut hk hd hroom with rfl | hcut
    · exact .inl (isNode_enter hl hb)
    · exact .inr (.inr (hlog ▸ hcut))
  simpa only [hh.seen_eq, hlog, List.append_nil] using fates_seenAfter h hown

/-- A turn keeps track of what becomes of the states.

**Proof sketch.** A turn that enters a boundary departs from it, or halts there. Nothing else makes
a state. -/
lemma fates_turn {s s' : Search (L × Log) κ} {stage stage' : Stage σ}
    {ledger : List (List PathEntry)} (hR : HeedsAt P R A s stage)
    (hT : Turn P A.recorded s stage s' stage') (hg : Grounded P R s stage)
    (hd : s.depthLimit = some (d : Int)) (hroom : (live s stage).length < d)
    (h : ∀ i < s.seen.size, Fate P R d ledger s.seen s.listeners.2 i) :
    ∀ i < s'.seen.size, Fate P R d (ledger ++ (departed s s' stage').toList) s'.seen
      s'.listeners.2 i := by
  obtain ⟨new, hlog, -⟩ := turn_log hT
  have quiet : s'.seen = s.seen → ∀ i < s'.seen.size,
      Fate P R d (ledger ++ (departed s s' stage').toList) s'.seen s'.listeners.2 i := by
    intro hseen i hi
    rw [hlog, hseen]
    exact (h i (hseen ▸ hi)).append (fun hk => hk) _ _
  -- a departure from a boundary that has been entered
  have departs : ∀ {t : Search (L × Log) κ} scene top {b key}, t.seen = s.seen →
      s'.seen = t.seenAfter key → s'.path = ⟨t.identify key, b.options, 0⟩ :: t.path →
      t.arrival scene top b key ∈ new → stage'.goesOn = true → ∀ i < s'.seen.size,
        Fate P R d (ledger ++ (departed s s' stage').toList) s'.seen s'.listeners.2 i := by
    intro t scene top b key hseen hseen' hpath harr hon
    have hdep : departed s s' stage' = some s'.path :=
      departed_eq_some.mpr ⟨⟨_, by rwa [hlog, Log.said_append], rfl⟩, hon, rfl⟩
    rw [hdep, hpath, hlog, hseen', Option.toList_some]
    refine fates_seenAfter (hseen ▸ h) fun _ => .inr (.inl ?_)
    rw [departuresFrom_concat, if_pos rfl]
    simp
  cases hT with
  | @request t p q w i k hw hr hp hask ht hcont hk =>
    refine departs (t := t) (P.scene q) (some i.frame) (by simp [ht])
      (by rw [Search.told_seen, Search.entered_seen])
      (by rw [Search.told_path, Search.entered_path]) ?_ (by simp [Stage.goesOn, hw])
    rw [requested_log ht] at hlog
    rw [← List.append_cancel_right hlog]
    exact List.mem_cons_of_mem _ List.mem_cons_self
  | @requestHalt t _ p q w i k hw hr hp hask ht hhalt hk =>
    obtain ⟨l, -, hl, hb, -⟩ := hg.exists_requested hw hr hR hp hask hk
    have hpath : t.path = s.path := by simp [ht]
    have hseen : t.seen = s.seen := by simp [ht]
    rw [departed_of_not_goesOn rfl, Option.toList_none, List.append_nil]
    exact fates_halts hhalt (by simpa [ht] using hd) (by simpa [live, hw, hpath] using hroom)
      hl hb (hseen ▸ h) hlog
  | @choose p q w n k hw hr hp hn hcont hk =>
    refine departs (t := s) (P.scene q) w.frame rfl (by rw [Search.entered_seen])
      (by rw [Search.entered_path]) ?_ (by simp [Stage.goesOn, hw])
    rw [Search.entered_log, ← List.singleton_append] at hlog
    rw [← List.append_cancel_right hlog]
    exact List.mem_cons_self
  | @chooseHalt _ p q w n k hw hr hp hn hhalt hk =>
    obtain ⟨l, -, hl, hb, -⟩ := hg.exists_choice hw hr hp hn hk
    rw [departed_of_not_goesOn rfl, Option.toList_none, List.append_nil]
    exact fates_halts hhalt hd (by simpa [live, hw] using hroom) hl hb h hlog
  | leave hp hf hw hs hleave =>
    obtain ⟨l, rfl⟩ := hs.eq_recorded
    exact quiet hleave.kept.1
  | @finish t u _ _ p q w ending k hp hf hw he hi hr hs hu hleave hk =>
    obtain ⟨l, -, hl, hb, -⟩ := hg.exists_finished hw hr hp he hi hk
    obtain ⟨r, rfl⟩ := hs.eq_recorded
    have hseen : u.seen = s.seen := by simp [hu]
    rw [departed_of_not_goesOn hleave.goesOn, hleave.kept.1, Search.entered_seen, hlog]
    exact fates_seenAfter (hseen ▸ h) fun _ => .inl (isNode_enter hl hb)
  | _ => exact quiet (by simp)

end Turns

section Runs

variable [DecidableEq κ] {name : String} {maxStates : Option Int} {outside : Scene} {l₀ : L}
  {x : Exploration σ (L × Log) κ}

/-- An undisturbed run never goes deeper than the limit.

**Proof sketch.** Induction on the number of moves: each of them is a turn. -/
theorem shallow_after (hd : 1 ≤ d) (hx : x = fresh name (some (d : Int)) maxStates outside l₀)
    {n : Nat} (h : (after P A.recorded n x).Undisturbed) :
    (after P A.recorded n x).search.depthLimit = some (d : Int) ∧
      (after P A.recorded n x).search.Shallow d ∧
      (live (after P A.recorded n x).search (after P A.recorded n x).stage).length < d := by
  induction n with
  | zero =>
    subst hx
    exact ⟨rfl, ⟨Nat.zero_le d, by simp [fresh, ofSearch, Search.new]⟩, hd⟩
  | succ n ih =>
    have hn := undisturbed_of_le (hx ▸ orderly_fresh) (Nat.le_succ n) h
    obtain ⟨hlimit, hshallow, hroom⟩ := ih hn
    rw [after_succ] at h ⊢
    have hT := turn_of_undisturbed h
    exact ⟨hT.depthLimit_eq.trans hlimit, shallow_turn hT hlimit hshallow hroom⟩

/-- It is known of every state of an undisturbed run what becomes of it. -/
lemma fates_after (hP : P.Deterministic) (hd : 1 ≤ d)
    (hx : x = fresh name (some (d : Int)) maxStates outside l₀) (hR : Heeds P R A x) {n : Nat}
    (h : (after P A.recorded n x).Undisturbed) :
    ∀ i < (after P A.recorded n x).search.seen.size,
      Fate P R d (departures P A n x) (after P A.recorded n x).search.seen
        (after P A.recorded n x).search.listeners.2 i := by
  induction n with
  | zero =>
    subst hx
    intro i hi
    exact absurd hi (Nat.not_lt_zero i)
  | succ n ih =>
    have hn := undisturbed_of_le (hx ▸ orderly_fresh) (Nat.le_succ n) h
    obtain ⟨hlimit, -, hroom⟩ := shallow_after hd hx hn
    rw [after_succ] at h
    rw [departures_succ, after_succ]
    exact fates_turn (hR n hn) (turn_of_undisturbed h) (hx ▸ grounded_after hP (hx ▸ hR) (hx ▸ hn))
      hlimit hroom (ih hn)

/-- A search with a limit on the depth, which nobody ends and in which no listener fails, has found
every state that some sequence of choices leads to, when it returns, unless the sequence has led
through a state that was met for the first time at the limit and cut off there. In particular every
such state has a fingerprint. It never goes deeper than the limit.

**Proof sketch.** Every state that is not cut off is an end state or has been departed from, and
then all of its alternatives have been followed: it has been expanded. By induction along the way
the next state has been found as long as none has been cut off. -/
theorem depth_bounded_completeness (hP : P.Deterministic) (hH : P.Honest) (hA : P.Adequate R)
    (hd : 1 ≤ d) (hx : x = fresh name (some (d : Int)) maxStates outside l₀)
    (hR : Heeds P R A x) {fuel : Nat} {y : Exploration σ (L × Log) κ}
    (hrun : run P A.recorded fuel x = (y, some .completed)) (hy : y.search.terminated = false) :
    (∀ l b r rs, P.Way R l b r rs → (∃ k ∈ y.search.seen, r = .ok k) ∨
      ∃ k', .ok k' ∈ rs ∧ k' ∈ y.search.seen ∧
        Log.CutAt y.search.listeners.2 d (y.search.identify k')) ∧
      ∀ n, (after P A.recorded n x).search.path.length ≤ d ∧
        ∀ e ∈ (after P A.recorded n x).search.listeners.2, e.view.depth ≤ d := by
  obtain ⟨N, rfl, hover⟩ := run_eq_some hrun
  have h : (after P A.recorded N x).Undisturbed := ⟨hy, by rw [hover]; rfl⟩
  refine ⟨?_, fun n => ?_⟩
  · obtain ⟨-, hl⟩ := ledger_after hP hH hx hR h
    obtain ⟨crossings, hc⟩ := crossings_after hP hH hx hR h
    have hfate := fates_after hP hd hx hR h
    have hnodup := nodup_seen_after hx h
    rw [hover] at hl hc
    obtain ⟨t, k₀, -, -, -, hk₀, hopens⟩ := exists_first_crossing hc
    generalize hs : (after P A.recorded N x).search = s at hl hc hfate hnodup hk₀ ⊢
    have expanded : ∀ {i}, i < s.seen.size → ¬Log.CutAt s.listeners.2 d i →
        ExpandedAt P R s.seen s.listeners.2 i := by
      intro i hi hcut
      rcases hl.closed i hi (by simp [live]) with ⟨hnone, -⟩ | ⟨e, below, rfl, hn, hdep⟩
      · rcases hfate i hi with hn | hdep | hc'
        · exact expandedAt_of_leaf hc hn hnone
        · exact absurd hnone hdep
        · exact absurd hc' hcut
      · exact expandedAt_of_departures hc hn hdep
    intro l b r rs hway
    induction hway with
    | @first l b r hcalm hb =>
      have hfirst : P.Opens R r := ⟨l, b, (Program.Way.first hcalm hb).reaches.1, hb, hcalm⟩
      exact .inl ⟨k₀, Array.mem_of_getElem? hk₀, hA.opens hfirst hopens⟩
    | @next l m b b' r r' rs a hway hleg hb' ih =>
      rcases ih with ⟨k, hk, rfl⟩ | ⟨k₁, hk₁, hseen, hcut⟩
      · obtain ⟨hl', hb⟩ := hway.reaches
        obtain ⟨i, hi, hik⟩ := Array.mem_iff_getElem.mp hk
        have hik : s.seen[i]? = some k := by rw [Array.getElem?_eq_getElem hi, hik]
        have hid : s.identify k = i := Search.identify_of_getElem? hnodup hik
        by_cases hcut : Log.CutAt s.listeners.2 d i
        · exact .inr ⟨k, List.mem_cons_self, hk, hid ▸ hcut⟩
        · obtain ⟨l', hdep, -⟩ := id hleg
          have hm := (hway.next hleg hb').reaches.1
          exact .inl ((expanded hi hcut).mem_of_follows hA hl' hb hik (hdep.lt_arity hb)
            ⟨l, b, m, b', hl', hb, hleg, hm, hb'⟩)
      · exact .inr ⟨k₁, List.mem_cons_of_mem _ hk₁, hseen, hcut⟩
  · rcases Nat.le_total n N with hn | hn
    · obtain ⟨-, hshallow, -⟩ := shallow_after hd hx (undisturbed_of_le (hx ▸ orderly_fresh) hn h)
      exact ⟨hshallow.path, hshallow.said⟩
    · obtain ⟨-, hshallow, -⟩ := shallow_after hd hx h
      rw [after_of_over hover hn]
      exact ⟨hshallow.path, hshallow.said⟩

end Runs

end Exploration

/-! ## Stairs -/

/-- Stairs of three steps that are climbed one or two at a time, until the third step is reached or
passed. The configuration and the fingerprint are the steps climbed; a program that has been stopped
has climbed five. -/
def stairs : Program Nat Nat where
  start _ := 0
  next c :=
    if c < 3 then .choice 2 c else if c < 5 then .ended .normal c else .ended .stopped c
  reply c r :=
    match r with
    | .choose a => c + a + 1
    | .stop => 5
    | _ => c
  scene _ := ⟨.empty, .empty, #[]⟩
  fingerprint _ c _ _ := .ok c

/-- Two climbs begin alike. -/
lemma stairs_deterministic : stairs.Deterministic := fun _ _ => .refl _

/-- The climber chooses below the third step. -/
lemma stairs_branching : stairs.Branching (fun c => c < 3) fun c a => c + a + 1 where
  fork h := if_pos h
  leaf {c} h := by
    by_cases h5 : c < 5
    · exact ⟨.normal, (if_neg h).trans (if_pos h5)⟩
    · exact ⟨.stopped, (if_neg h).trans (if_neg h5)⟩
  reply _ _ := rfl
  fingerprint _ _ _ _ := rfl

/-- The climber never stops by himself: after three choices he has none left. -/
lemma stairs_honest : stairs.Honest := Program.honest_of_candid 4 (by decide)

/-- One may climb to the fourth step by the second one. -/
lemma stairs_way : ∃ l b, stairs.Way (fun _ _ => True) l b (.ok 4) [.ok 2, .ok 0] := by
  have h0 : stairs.Way (fun _ _ => True) (stairs.startPlace 0) (.choice 2) (.ok 0) [] :=
    .first .refl (.choice (n := 2) (i := 0) rfl (by decide) rfl)
  have h2 : stairs.Way (fun _ _ => True) ⟨2, none, none, [1], []⟩ (.choice 2) (.ok 2) [.ok 0] :=
    h0.next ⟨_, .choice rfl 1 (by decide), .refl⟩ (.choice (n := 2) (i := 0) rfl (by decide) rfl)
  exact ⟨⟨4, none, none, [1, 1], []⟩, .finished,
    h2.next ⟨_, .choice rfl 1 (by decide), .refl⟩
      (.finished (i := 0) rfl (by simp) (by simp) rfl)⟩

namespace Exploration

/-- A search of the stairs with at most three boundaries on a path. -/
def stairsSearch : Exploration Nat (Unit × Log) Nat :=
  fresh "stairs" (some 3) none ⟨.empty, .empty, #[]⟩ ()

/-- The search of the stairs has found every step, unless it is climbed to by one that was cut
off. -/
theorem depth_bounded_completeness_stairs :
    (run stairs Audience.mute.recorded 16 stairsSearch).2 = some .completed ∧
      ∀ l b r rs, stairs.Way (fun _ _ => True) l b r rs →
        (∃ k ∈ (run stairs Audience.mute.recorded 16 stairsSearch).1.search.seen, r = .ok k) ∨
          ∃ k', .ok k' ∈ rs ∧ k' ∈ (run stairs Audience.mute.recorded 16 stairsSearch).1.search.seen ∧
            Log.CutAt (run stairs Audience.mute.recorded 16 stairsSearch).1.search.listeners.2 3
              ((run stairs Audience.mute.recorded 16 stairsSearch).1.search.identify k') := by
  have hrun : (run stairs Audience.mute.recorded 16 stairsSearch).2 = some .completed := by
    decide +kernel
  have hterm : (run stairs Audience.mute.recorded 16 stairsSearch).1.search.terminated = false := by
    decide +kernel
  have h := depth_bounded_completeness (d := 3) stairs_deterministic stairs_honest
    (stairs_branching.adequate fun _ => .inl trivial) (by decide) rfl (heeds_true _)
    (Prod.ext rfl hrun) hterm
  exact ⟨hrun, h.1⟩

/-- The second step is met first as the third boundary of a path and cut off there. It is met again
as the second boundary of another path, and not left either: the fourth step, which is the third
boundary of that way, is not found. -/
theorem depth_bounded_completeness_missed :
    stairs.Deterministic ∧ stairs.Honest ∧ stairs.Adequate (fun _ _ => True) ∧
      (run stairs Audience.mute.recorded 16 stairsSearch).2 = some .completed ∧
      (run stairs Audience.mute.recorded 16 stairsSearch).1.search.terminated = false ∧
      stairsSearch.search.depthLimit = some 3 ∧ stairsSearch.search.maxStates = none ∧
      (∃ l b, stairs.Way (fun _ _ => True) l b (.ok 4) [.ok 2, .ok 0]) ∧
      4 ∉ (run stairs Audience.mute.recorded 16 stairsSearch).1.search.seen := by
  refine ⟨stairs_deterministic, stairs_honest, stairs_branching.adequate fun _ => .inl trivial, ?_,
    ?_, rfl, rfl, stairs_way, ?_⟩ <;> decide +kernel

end Exploration

end StateAtlas
