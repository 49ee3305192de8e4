import StateAtlas.Proofs.Label.Gathering
import StateAtlas.Provider.Basic

set_option autoImplicit false

/-!
# Where the labels of a state come from

In every run of a search a label that providers say of the step to a new state is recorded for it.
Conversely, a label that is recorded for a state was said of it or of the last step. As long as no
choice has been restored since, that step led to the state. After a restored choice it may lie on
another path, since a known state leaves what was said of the step to it waiting.

## Main definitions

* `StateAtlas.dice` — a program that leaves an execution between an instruction and what it does.

## Main results

* `StateAtlas.Exploration.requested_label_recorded` — a label that is said of the step to a new
  state is recorded for it.
* `StateAtlas.Exploration.requested_label_lost` — not so if the state is known.
* `StateAtlas.Exploration.recorded_label_provenance` — a label that is recorded for a state was said
  of it, or of the last step.
* `StateAtlas.Exploration.recorded_label_leaked` — the last step may lie on another path.
-/

namespace StateAtlas

variable {σ L κ P : Type} [LabelProvider P]

/-! ## Two dice -/

/-- A throw of two dice: how far it has come, and what the dice show. -/
structure Throw where
  stage : Nat
  first : Nat
  second : Nat
  deriving DecidableEq

namespace Throw

/-- Whether the second die shows anything. -/
def outcome (c : Throw) : Value := .bool (c.second ≠ 0)

/-- The instruction that runs next: `f` returns, or what it has returned is dropped. -/
def instruction (c : Throw) : Instruction where
  opname := if c.stage = 2 then "RETURN_VALUE" else "POP_TOP"
  argument := .none
  argumentText := ""
  offset := c.stage
  frame := 0
  function := "dice.f"
  isEntry := false
  returned := false
  returnValue := .none
  exception := none

end Throw

/-- Two dice are thrown one after the other, with no instruction in between; the second one has as
many more faces as the first one shows. Then `f` returns whether the second one shows anything,
which is its variable `x`. Whether it does is not part of the fingerprint after that. -/
def dice : Program Throw (Nat × Nat) where
  start _ := ⟨0, 0, 0⟩
  next c :=
    match c.stage with
    | 0 => .choice 2 c
    | 1 => .choice (2 + c.first) c
    | 2 | 4 => .instruction c.instruction c
    | 3 => .effect (.returned 0 c.outcome) { c with stage := 4 }
    | 5 => .ended .normal c
    | _ => .ended .stopped c
  reply c r :=
    match c.stage, r with
    | 0, .choose a => ⟨1, a, 0⟩
    | 1, .choose a => ⟨2, c.first, a⟩
    | _, .proceed => { c with stage := c.stage + 1 }
    | _, .stop => { c with stage := 6 }
    | _, _ => c
  scene c :=
    { Scene.empty with
      frames :=
        if c.stage = 2 then
          #[⟨0, "f", none, "", 0, 0, true, none, .slots #["x"] #[.value c.outcome]⟩]
        else #[] }
  fingerprint _ c _ _ := .ok (c.stage, if c.stage = 1 then c.first else 0)

/-- A writer that has heard nothing, with some providers. -/
def Writer.ofProviders (ps : List Provider) : Writer Provider := .new ps (.text #[]) ⟨"", []⟩

/-- The search through the throws of two dice, after a number of moves, with one writer. -/
def diceSearch (ps : List Provider) (n : Nat) :
    Exploration Throw (Listeners Provider × Log) (Nat × Nat) :=
  Exploration.after dice Listeners.audience.recorded n
    (Exploration.fresh "dice" none none .empty ⟨[.writer (.ofProviders ps)], .empty⟩)

/-- What has been delivered in the search through the throws of two dice. -/
def diceLog (ps : List Provider) (n : Nat) : Log := (diceSearch ps n).search.listeners.2

/-- The writer in the search through the throws of two dice. -/
def diceWriter (ps : List Provider) (n : Nat) : Option (Writer Provider) :=
  Listeners.seat 0 (diceSearch ps n).search.listeners.1

/-- A provider that labels what `f` returns. -/
def outcomes : List Provider := [.function ⟨.boolean, [⟨"dice.f"⟩]⟩]

/-- The search always has its writer. -/
lemma exists_diceWriter (ps : List Provider) (n : Nat) : ∃ w, diceWriter ps n = some w := by
  have h₀ : Listeners.seat 0 (⟨[.writer (.ofProviders ps)], .empty⟩ : Listeners Provider) =
      some (.ofProviders ps) := rfl
  obtain ⟨_, w, h⟩ :=
    Exploration.present_after dice "dice" none none .empty (Listeners.seats_audience 0) h₀ n
  exact ⟨w, h.seated⟩

/-- The last two deliveries of a log. -/
lemma Log.exists_last_two {log : Log} (h : 2 ≤ log.length) :
    ∃ d d' earlier, log = d :: d' :: earlier := by
  match log, h with
  | d :: d' :: earlier, _ => exact ⟨d, d', earlier, rfl⟩

lemma notice_of_kind {n : Notice} (h : EventKind.ofNotice? n = some .advanced) : n = .advanced := by
  cases n <;> simp_all [EventKind.ofNotice?]

namespace Exploration

variable {Q : Program σ κ} {A : Audience L} [DecidableEq κ] {seat : L → Option (Writer P)}
  {name : String} {depthLimit maxStates : Option Int} {outside : Scene} {l₀ : L} {w₀ : Writer P}

/-- A label that a provider says of a step is recorded for the state at the boundary after it, if
that state is new and the search has not failed when it was announced: from then on the label has
an index, and this is among the indices recorded for the state.

**Proof sketch.** What is said of the step waits for the next new state, which is announced next.
The writer is faithful to what it has heard, and the state is labelled at no other delivery. -/
theorem requested_label_recorded (hA : A.Seats seat) (h₀ : seat l₀ = some w₀) (hb : w₀.Blank)
    {n m : Nat} (hnm : n ≤ m) {d d' : Delivery} {earlier : Log}
    (hlog : d' :: d :: earlier <:+
      (after Q A.recorded n (fresh name depthLimit maxStates outside l₀)).search.listeners.2)
    (hlast : (after Q A.recorded n (fresh name depthLimit maxStates outside l₀)).search.listeners.2 =
      d' :: d :: earlier →
        (after Q A.recorded n (fresh name depthLimit maxStates outside l₀)).stage.Sound)
    {l : Label} (hl : l ∈ Log.requested w₀.providers (d :: earlier))
    (hadv : d'.notice = .advanced) (hnew : d'.view.isNew = true) :
    ∃ w i, seat (after Q A.recorded m
          (fresh name depthLimit maxStates outside l₀)).search.listeners.1 = some w ∧
      w.tally.registry.indexOf? l = some i ∧
        (∃ r ∈ w.journal.states, r.id = d'.view.stateId) ∧
          ∀ r ∈ w.journal.states, r.id = d'.view.stateId → i ∈ r.indices := by
  obtain ⟨taken, w, h⟩ := taken_after (Q := Q) hA h₀ hnm hlog hlast
  have hfaith := Writer.faithful_heard hb h.takes
  have hreg : Log.Regular taken := (regular_after m).of_suffix h.suffix
  have hheld : l ∈ Log.held w₀.providers d' (d :: earlier) := by
    rw [Log.held, hadv]
    exact List.mem_append_left _ (Log.mem_gathered_of_requested hl)
  have hid : d'.labelled? = some d'.view.stateId := by simp [Delivery.labelled?, hadv, hnew]
  obtain ⟨r, hr, hrid, hlists⟩ :=
    hfaith.complete d' (d :: earlier) h.based _ hid (List.ne_nil_of_mem hheld)
  obtain ⟨i, -, hindex⟩ := hlists.every l hheld
  refine ⟨w, i, h.seated, Registry.indexOf?_of_grows h.trails.grows hindex,
    ⟨r, h.trails.states ▸ hr, hrid⟩, fun r' hr' hrid' => ?_⟩
  rw [h.trails.states] at hr'
  obtain ⟨d₂, earlier₂, hs, hid₂, hlists'⟩ := hfaith.sound r' hr'
  obtain ⟨rfl, rfl⟩ := hreg.eq_of_labelled h.based hs ⟨hadv, hnew⟩ (hrid' ▸ hid₂)
  obtain ⟨j, hj, hindex'⟩ := hlists'.every l hheld
  rwa [Option.some.inj (hindex.symm.trans hindex')]

/-- The label of a throw that shows nothing is recorded for the state after it. -/
theorem requested_label_recorded_dice : ∃ d d' earlier l, d' :: d :: earlier <:+ diceLog outcomes 7 ∧
    l ∈ Log.requested outcomes (d :: earlier) ∧ d'.notice = .advanced ∧ d'.view.isNew = true ∧
      ∃ w i, diceWriter outcomes 8 = some w ∧ w.tally.registry.indexOf? l = some i ∧
        (∃ r ∈ w.journal.states, r.id = d'.view.stateId) ∧
          ∀ r ∈ w.journal.states, r.id = d'.view.stateId → i ∈ r.indices := by
  have hread : 2 ≤ (diceLog outcomes 7).tail.length ∧ (diceLog outcomes 7).tail.head?.map
        (fun d => (EventKind.ofNotice? d.notice, d.view.isNew)) = some (some .advanced, true) ∧
      Log.requested outcomes (diceLog outcomes 7).tail.tail =
        [⟨"false__dice_f", "dice.f returned False"⟩] := by
    decide +kernel
  obtain ⟨d', d, earlier, hlog⟩ := Log.exists_last_two hread.1
  simp only [hlog, List.tail_cons, List.head?_cons, Option.map_some, Option.some.injEq,
    Prod.mk.injEq] at hread
  obtain ⟨-, ⟨hkind, hnew⟩, hreq⟩ := hread
  have hl : (⟨"false__dice_f", "dice.f returned False"⟩ : Label) ∈
      Log.requested outcomes (d :: earlier) := by simp [hreq]
  have hs : d' :: d :: earlier <:+ diceLog outcomes 7 := hlog ▸ List.tail_suffix _
  -- another delivery comes after these two
  have hlater : diceLog outcomes 7 ≠ d' :: d :: earlier := fun heq => by
    simp [heq] at hlog
  refine ⟨d, d', earlier, _, hs, hl, notice_of_kind hkind, hnew, ?_⟩
  exact requested_label_recorded (Listeners.seats_audience 0) rfl ⟨rfl, rfl⟩ (by decide) hs
    (fun heq => absurd heq hlater) hl (notice_of_kind hkind) hnew

/-- A label that is said of the step to a known state is not recorded for it: both outcomes lead to
the same state, which is labelled with the first one only. -/
theorem requested_label_lost : ¬∀ (d d' : Delivery) (earlier : Log) (l : Label),
    d' :: d :: earlier <:+ diceLog outcomes 14 → l ∈ Log.requested outcomes (d :: earlier) →
      d'.notice = .advanced →
        ∃ w i, diceWriter outcomes 14 = some w ∧ w.tally.registry.indexOf? l = some i ∧
          (∃ r ∈ w.journal.states, r.id = d'.view.stateId) ∧
            ∀ r ∈ w.journal.states, r.id = d'.view.stateId → i ∈ r.indices := by
  intro h
  have hread : 2 ≤ (diceLog outcomes 14).length ∧ (diceLog outcomes 14).head?.map
        (fun d => (EventKind.ofNotice? d.notice, d.view.stateId)) = some (some .advanced, 2) ∧
      Log.requested outcomes (diceLog outcomes 14).tail =
        [⟨"true__dice_f", "dice.f returned True"⟩] ∧
      (diceWriter outcomes 14).map (fun w =>
        (w.tally.registry.indexOf? ⟨"true__dice_f", "dice.f returned True"⟩,
          w.journal.states.toList)) = some (some 1, [⟨2, [0]⟩]) := by
    decide +kernel
  obtain ⟨d', d, earlier, hlog⟩ := Log.exists_last_two hread.1
  simp only [hlog, List.tail_cons, List.head?_cons, Option.map_some, Option.some.injEq,
    Prod.mk.injEq] at hread
  obtain ⟨-, ⟨hkind, hid⟩, hreq, hw⟩ := hread
  obtain ⟨w, i, hseat, hindex, -, hall⟩ := h d d' earlier _ (hlog ▸ List.suffix_refl _)
    (by rw [hreq]; exact List.mem_singleton_self _) (notice_of_kind hkind)
  simp only [hseat, Option.map_some, Option.some.injEq, Prod.mk.injEq, hindex] at hw
  obtain ⟨rfl, hstates⟩ := hw
  have hmem := hall ⟨2, [0]⟩ (by simp [← Array.mem_toList_iff, hstates]) hid.symm
  simp at hmem

variable (Q name depthLimit maxStates outside) in
/-- Every label that is recorded for a state was said of this state, or of the last step before it.
In the second case no new state has been announced since the step; and nothing at all has happened
to the path since, neither a boundary nor a retreat, unless a choice has been restored.

**Proof sketch.** The writer is faithful to what it has heard: what it has recorded holds in the
state, and what was waiting for it was said of the last step. An execution is under way at a
boundary, and without a restored choice it has met no known state and no retreat. -/
theorem recorded_label_provenance (hA : A.Seats seat) (h₀ : seat l₀ = some w₀) (hb : w₀.Blank)
    (n : Nat) :
    ∃ w, seat (after Q A.recorded n
        (fresh name depthLimit maxStates outside l₀)).search.listeners.1 = some w ∧
      ∀ r ∈ w.journal.states, ∃ d earlier, d :: earlier <:+
          (after Q A.recorded n (fresh name depthLimit maxStates outside l₀)).search.listeners.2 ∧
        d.labelled? = some r.id ∧ ∀ i ∈ r.indices, ∃ l, w.tally.registry.indexOf? l = some i ∧
          (l ∈ Log.named w₀.providers d earlier ∨
            ∃ between x before, earlier = between ++ x :: before ∧
              l ∈ Log.requested w₀.providers (x :: before) ∧
              (∀ y ∈ between, (∀ e next, y.notice ≠ .executed e next) ∧
                (y.notice = .advanced → y.view.isNew = false)) ∧
              ((∀ y ∈ between, y.notice ≠ .restored) →
                ∀ y ∈ between, y.notice ≠ .advanced ∧ y.notice ≠ .backtracked)) := by
  obtain ⟨taken, w, h⟩ := present_after Q name depthLimit maxStates outside hA h₀ n
  have hfaith := Writer.faithful_heard hb h.takes
  have hreg : Log.Regular
      (after Q A.recorded n (fresh name depthLimit maxStates outside l₀)).search.listeners.2 :=
    regular_after n
  refine ⟨w, h.seated, fun r hr => ?_⟩
  rw [h.trails.states] at hr
  obtain ⟨d, earlier, hs, hid, hlists⟩ := hfaith.sound r hr
  have hs := hs.trans h.suffix
  refine ⟨d, earlier, hs, hid, fun i hi => ?_⟩
  obtain ⟨l, hl, hindex⟩ := hlists.only i hi
  refine ⟨l, Registry.indexOf?_of_grows h.trails.grows hindex, ?_⟩
  rw [Log.held] at hl
  split at hl
  · rename_i hadv
    refine (List.mem_append.mp hl).symm.imp id fun hg => ?_
    obtain ⟨between, x, before, rfl, hx, hall⟩ := Log.exists_of_mem_gathered hg
    have hknown : ∀ y ∈ between, (∀ e next, y.notice ≠ .executed e next) ∧
        (y.notice = .advanced → y.view.isNew = false) := by
      intro y hy
      have hp := hall y hy
      rw [Log.passes] at hp
      cases hn : y.notice <;> simp_all
    refine ⟨between, x, before, rfl, hx, hknown, fun hr y hy => ?_⟩
    have hlive := (hreg d _ hs).lively (by simp [Log.isLively, hadv])
    obtain ⟨hback, -, hfresh⟩ := Log.undivided_of_underway hlive hr y hy
    exact ⟨fun hadv' => by simpa [(hknown y hy).2 hadv'] using hfresh hadv', hback⟩
  · exact .inl hl

/-- In the search through the throws of two dice, all labels were said of a step. -/
theorem recorded_label_provenance_dice : ∃ w, diceWriter outcomes 18 = some w ∧
    w.journal.states.toList = [⟨2, [0]⟩, ⟨4, [1]⟩] ∧
      ∀ r ∈ w.journal.states, ∃ d earlier, d :: earlier <:+ diceLog outcomes 18 ∧
        d.labelled? = some r.id ∧ ∀ i ∈ r.indices, ∃ l, w.tally.registry.indexOf? l = some i ∧
          (l ∈ Log.named outcomes d earlier ∨
            ∃ x before, x :: before <:+ earlier ∧ l ∈ Log.requested outcomes (x :: before)) := by
  have h₀ : Listeners.seat 0 (⟨[.writer (.ofProviders outcomes)], .empty⟩ : Listeners Provider) =
      some (.ofProviders outcomes) := rfl
  obtain ⟨w, hw, h⟩ := recorded_label_provenance dice "dice" none none .empty
    (Listeners.seats_audience 0) h₀ ⟨rfl, rfl⟩ 18
  have hw : diceWriter outcomes 18 = some w := hw
  have hstates : (diceWriter outcomes 18).map (fun w => w.journal.states.toList) =
      some [⟨2, [0]⟩, ⟨4, [1]⟩] := by decide +kernel
  refine ⟨w, hw, by simpa [hw] using hstates, fun r hr => ?_⟩
  obtain ⟨d, earlier, hs, hid, hall⟩ := h r hr
  refine ⟨d, earlier, hs, hid, fun i hi => ?_⟩
  obtain ⟨l, hindex, hl⟩ := hall i hi
  refine ⟨l, hindex, hl.imp id ?_⟩
  rintro ⟨between, x, before, rfl, hreq, -⟩
  exact ⟨x, before, List.suffix_append _ _, hreq⟩

/-- A label may leak to another path: the state in which the second die is thrown after the first
one has shown something is labelled with the last outcome of the path before, though nothing has
run since the choice was restored. -/
theorem recorded_label_leaked : ¬∀ w, diceWriter outcomes 18 = some w → ∀ r ∈ w.journal.states,
    ∀ d earlier, d :: earlier <:+ diceLog outcomes 18 → d.labelled? = some r.id →
      ∀ i ∈ r.indices, ∃ l, w.tally.registry.indexOf? l = some i ∧
        (l ∈ Log.named outcomes d earlier ∨
          ∃ between x before, earlier = between ++ x :: before ∧
            l ∈ Log.requested outcomes (x :: before) ∧ ∀ y ∈ between,
              (∀ e next, y.notice ≠ .executed e next) ∧ y.notice ≠ .advanced ∧
                y.notice ≠ .backtracked ∧ y.notice ≠ .restored) := by
  intro h
  have hread : 2 ≤ (diceLog outcomes 18).length ∧
      (diceLog outcomes 18).head?.bind Delivery.labelled? = some 4 ∧
      (diceLog outcomes 18).tail.head?.map (fun d => EventKind.ofNotice? d.notice) =
        some (some .restored) ∧
      (diceLog outcomes 18).head?.map (fun d => Log.named outcomes d (diceLog outcomes 18).tail) =
        some [] ∧
      (diceWriter outcomes 18).map (fun w => w.journal.states.toList) =
        some [⟨2, [0]⟩, ⟨4, [1]⟩] := by
    decide +kernel
  obtain ⟨d, y, earlier, hlog⟩ := Log.exists_last_two hread.1
  obtain ⟨w, hw⟩ := exists_diceWriter outcomes 18
  simp only [hlog, hw, List.tail_cons, List.head?_cons, Option.map_some, Option.some.injEq,
    Option.bind_some] at hread
  obtain ⟨-, hid, hkind, hnamed, hstates⟩ := hread
  have hy : y.notice = .restored := by
    cases hn : y.notice <;> simp_all [EventKind.ofNotice?]
  obtain ⟨l, -, hl⟩ := h w hw ⟨4, [1]⟩ (by simp [← Array.mem_toList_iff, hstates]) d (y :: earlier)
    (hlog ▸ List.suffix_refl _) hid 1 (List.mem_singleton_self _)
  rcases hl with hl | ⟨between, x, before, heq, hreq, hall⟩
  · simp [hnamed] at hl
  · cases between with
    | nil =>
      obtain ⟨rfl, rfl⟩ := List.cons.inj heq
      simp [Log.requested, hy] at hreq
    | cons z between =>
      obtain ⟨rfl, -⟩ := List.cons.inj heq
      exact (hall y List.mem_cons_self).2.2.2 hy

end Exploration

end StateAtlas
