import StateAtlas.Proofs.Label.Writer

set_option autoImplicit false

/-!
# What a writer records

A writer records for a new state the labels that its providers say hold in it, together with those
they said of the last step, unless another new state has taken them in between. Nothing else is
recorded. A known state is not labelled again: what was said of the step to it is not recorded, and
waits for the next new state.

## Main definitions

* `StateAtlas.LabelProvider.informed` — a provider after a log.
* `StateAtlas.Log.requested` — what providers say of the step that was announced last.
* `StateAtlas.Log.gathered` — the labels that wait for the next new state.
* `StateAtlas.Delivery.labelled?` — the state that a writer labels at a delivery.
* `StateAtlas.Log.held` — the labels of that state.
* `StateAtlas.Writer.Attends` — what a writer becomes at a delivery at which it does not fail.
* `StateAtlas.Writer.Faithful` — what a writer has recorded are the labels of the states of a log.

## Main results

* `StateAtlas.Writer.attends_attend` — a writer attends a delivery at which it does not fail.
* `StateAtlas.Writer.faithful_heard` — a writer is faithful to what it has heard.
* `StateAtlas.Log.Regular.eq_of_labelled` — a log labels a new state at one delivery only.
-/

namespace StateAtlas

variable {P : Type} [LabelProvider P]

/-! ## What providers say of a log -/

namespace LabelProvider

/-- A provider after a delivery. -/
def inform (d : Delivery) (p : P) : P :=
  match d.notice with
  | .started => (stateLabels d.view p).1
  | .advanced => if d.view.isNew then (stateLabels d.view p).1 else p
  | .executing i => prepared d.view.scene i p
  | .executed i next => stepped d.view.scene i next p
  | _ => p

/-- A provider after the deliveries of a log. -/
def informed (p : P) : Log → P
  | [] => p
  | d :: earlier => inform d (informed p earlier)

end LabelProvider

/-- The state that a writer labels at a delivery: the one before the first boundary at the start,
and any new state. -/
def Delivery.labelled? (d : Delivery) : Option Int :=
  match d.notice with
  | .started => some (-1)
  | .advanced => if d.view.isNew then some d.view.stateId else none
  | _ => none

namespace Log

open LabelProvider

/-- What providers say of the step that was announced last, if the last delivery announces one. -/
def requested (ps : List P) : Log → List Label
  | [] => []
  | d :: earlier =>
    match d.notice with
    | .executed i next => ps.flatMap fun p => wants d.view.scene i next (informed p earlier)
    | _ => []

/-- The labels that wait for the next new state. -/
def gathered (ps : List P) : Log → List Label
  | [] => []
  | d :: earlier =>
    match d.notice with
    | .started => []
    | .executed .. => requested ps (d :: earlier)
    | .advanced => if d.view.isNew then [] else gathered ps earlier
    | _ => gathered ps earlier

/-- What providers say of the state that is announced after a log. -/
def named (ps : List P) (d : Delivery) (earlier : Log) : List Label :=
  ps.flatMap fun p => names d.view (informed p earlier)

/-- The labels of the state that is announced after a log: those that have waited for it, and those
that providers say of it. -/
def held (ps : List P) (d : Delivery) (earlier : Log) : List Label :=
  match d.notice with
  | .advanced => gathered ps earlier ++ named ps d earlier
  | _ => named ps d earlier

/-- A delivery that neither drops nor takes what waits for the next new state. -/
def passes (d : Delivery) : Bool :=
  match d.notice with
  | .started | .executed .. => false
  | .advanced => !d.view.isNew
  | _ => true

lemma gathered_of_passes {ps : List P} {d : Delivery} (h : passes d = true) (log : Log) :
    gathered ps (d :: log) = gathered ps log := by
  rw [passes] at h
  rw [gathered]
  cases hn : d.notice <;> simp_all

lemma gathered_of_not_passes {ps : List P} {d : Delivery} (h : passes d = false) (log : Log) :
    gathered ps (d :: log) = requested ps (d :: log) := by
  rw [passes] at h
  rw [gathered, requested]
  cases hn : d.notice <;> simp_all

/-- What waits for the next new state was said of the last step, and no new state has been announced
since. -/
lemma exists_of_mem_gathered {ps : List P} {log : Log} {l : Label} (h : l ∈ gathered ps log) :
    ∃ between x before, log = between ++ x :: before ∧ l ∈ requested ps (x :: before) ∧
      ∀ y ∈ between, passes y = true := by
  induction log with
  | nil => simp [gathered] at h
  | cons d log ih =>
    cases hp : passes d with
    | true =>
      rw [gathered_of_passes hp] at h
      obtain ⟨between, x, before, rfl, hx, hall⟩ := ih h
      refine ⟨d :: between, x, before, rfl, hx, fun y hy => ?_⟩
      rcases List.mem_cons.mp hy with rfl | hy
      · exact hp
      · exact hall y hy
    | false =>
      rw [gathered_of_not_passes hp] at h
      exact ⟨[], d, log, rfl, h, by simp⟩

/-- What is said of a step waits for the next new state. -/
lemma mem_gathered_of_requested {ps : List P} {d : Delivery} {log : Log} {l : Label}
    (h : l ∈ requested ps (d :: log)) : l ∈ gathered ps (d :: log) := by
  have hp : passes d = false := by
    rw [requested] at h
    rw [passes]
    cases hn : d.notice <;> simp_all
  rwa [gathered_of_not_passes hp]

end Log

/-! ## What is recorded -/

namespace Registry

/-- Some indices are those of some labels. -/
structure Lists (r : Registry) (indices : List Nat) (labels : List Label) : Prop where
  every : ∀ l ∈ labels, ∃ i ∈ indices, r.indexOf? l = some i
  only : ∀ i ∈ indices, ∃ l ∈ labels, r.indexOf? l = some i

/-- A registry that grows lists the same labels. -/
lemma Lists.mono {r r' : Registry} {indices : List Nat} {labels : List Label}
    (h : r.Lists indices labels) (hg : r.labels <+: r'.labels) : r'.Lists indices labels :=
  ⟨fun l hl => (h.every l hl).imp fun _ hi => ⟨hi.1, indexOf?_of_grows hg hi.2⟩,
    fun i hi => (h.only i hi).imp fun _ hl => ⟨hl.1, indexOf?_of_grows hg hl.2⟩⟩

end Registry

/-- What has been gathered on top of what was listed is listed. -/
lemma Tally.Gathers.lists {t t' : Tally} {labels labels' : List Label} (h : t.Gathers t' labels')
    (ht : t.registry.Lists t.current labels) :
    t'.registry.Lists t'.current (labels ++ labels') := by
  constructor
  · intro l hl
    rcases List.mem_append.mp hl with hl | hl
    · obtain ⟨i, hi, hx⟩ := ht.every l hl
      exact ⟨i, (h.mem_iff i).mpr (.inl hi), Registry.indexOf?_of_grows h.grows hx⟩
    · obtain ⟨i, hx⟩ := h.indexed l hl
      exact ⟨i, (h.mem_iff i).mpr (.inr ⟨l, hl, hx⟩), hx⟩
  · intro i hi
    rcases (h.mem_iff i).mp hi with hi | ⟨l, hl, hx⟩
    · obtain ⟨l, hl, hx⟩ := ht.only i hi
      exact ⟨l, List.mem_append_left _ hl, Registry.indexOf?_of_grows h.grows hx⟩
    · exact ⟨l, List.mem_append_right _ hl, hx⟩

/-- A tally that has been cleared lists nothing. -/
lemma Tally.lists_clear (t : Tally) : t.clear.registry.Lists t.clear.current [] :=
  ⟨by simp, by simp [Tally.clear]⟩

namespace Journal

/-- Recording labels records them for the state, or there are none. -/
lemma states_label (j : Journal) (s : LabeledState) :
    (j.label s).states = j.states.push s ∨ (j.label s).states = j.states ∧ s.indices = [] := by
  cases j with
  | plain states written => exact .inl rfl
  | text states =>
    rw [label]
    split
    · rename_i h
      exact .inr ⟨rfl, List.isEmpty_iff.mp h⟩
    · exact .inl rfl
  | graph cursor states edges =>
    rw [label]
    split
    · rename_i h
      exact .inr ⟨rfl, List.isEmpty_iff.mp h⟩
    · exact .inl rfl

/-- A recorded state was recorded before or is recorded now. -/
lemma mem_of_mem_label {j : Journal} {s r : LabeledState} (h : r ∈ (j.label s).states) :
    r ∈ j.states ∨ r = s := by
  rcases j.states_label s with hs | ⟨hs, -⟩
  · rwa [hs, Array.mem_push] at h
  · exact .inl (hs ▸ h)

/-- No record is lost. -/
lemma mem_label_of_mem {j : Journal} {s r : LabeledState} (h : r ∈ j.states) :
    r ∈ (j.label s).states := by
  rcases j.states_label s with hs | ⟨hs, -⟩
  · rw [hs, Array.mem_push]
    exact .inl h
  · rwa [hs]

/-- A state with labels is recorded. -/
lemma mem_label_self {j : Journal} {s : LabeledState} (h : s.indices ≠ []) :
    s ∈ (j.label s).states := by
  rcases j.states_label s with hs | ⟨-, hs⟩
  · rw [hs]
    exact Array.mem_push_self
  · exact absurd hs h

@[simp] lemma states_advance (j : Journal) (id : Int) : (j.advance id).states = j.states := by
  cases j <;> rfl

@[simp] lemma states_move (j : Journal) (id : Int) : (j.move id).states = j.states := by
  cases j <;> rfl

end Journal

namespace Writer

open LabelProvider

/-- What a writer becomes at a delivery at which it does not fail: what it gathers is what its
providers say, and they are informed of the delivery. -/
inductive Attends (w : Writer P) : Delivery → Writer P → Prop
  /-- The state before the first boundary has only the labels that hold in it. -/
  | started {view : View} {t : Tally}
      (gathers : w.tally.clear.Gathers t (w.providers.flatMap (names view))) :
      Attends w ⟨view, .started⟩
        { w with
          providers := w.providers.map (inform ⟨view, .started⟩)
          tally := t.clear
          journal := w.journal.label ⟨-1, t.current⟩ }
  /-- A new state is labelled before the step to it is recorded. -/
  | discovered {view : View} {t : Tally} (hnew : view.isNew = true)
      (gathers : w.tally.Gathers t (w.providers.flatMap (names view))) :
      Attends w ⟨view, .advanced⟩
        { w with
          providers := w.providers.map (inform ⟨view, .advanced⟩)
          tally := t.clear
          journal := (w.journal.label ⟨view.stateId, t.current⟩).advance view.stateId }
  /-- Only the step to a known state is recorded. -/
  | revisited {view : View} (hnew : view.isNew = false) :
      Attends w ⟨view, .advanced⟩ { w with journal := w.journal.advance view.stateId }
  /-- A retreat, or the choice after it, moves the cursor. -/
  | moved {view : View} {n : Notice} (hn : n = .backtracked ∨ n = .restored) :
      Attends w ⟨view, n⟩ { w with journal := w.journal.move view.stateId }
  /-- Providers take note of an instruction. -/
  | executing {view : View} {i : Instruction} :
      Attends w ⟨view, .executing i⟩
        { w with providers := w.providers.map (inform ⟨view, .executing i⟩) }
  /-- What has been gathered is dropped for what providers say of a step. -/
  | executed {view : View} {i : Instruction} {next : Option Instruction} {t : Tally}
      (gathers : w.tally.clear.Gathers t (w.providers.flatMap (wants view.scene i next))) :
      Attends w ⟨view, .executed i next⟩
        { w with
          providers := w.providers.map (inform ⟨view, .executed i next⟩)
          tally := t }
  /-- A limit, or the end, has the journal written. -/
  | written {view : View} {n : Notice} (name : String) (hn : n = .constraintHit ∨ n = .finished) :
      Attends w ⟨view, n⟩ (w.writeJournal .empty name).1

/-- A writer that labels a state asks its providers, and records what they say on top of what it
has gathered. -/
lemma gathers_labelState {w : Writer P} {view : View} {id : Int}
    (h : (w.labelState view id).2 = none) :
    ∃ t, w.tally.Gathers t (w.providers.flatMap (names view)) ∧
      (w.labelState view id).1 = { w with
        providers := w.providers.map (fun p => (stateLabels view p).1)
        tally := t.clear
        journal := w.journal.label ⟨id, t.current⟩ } := by
  revert h
  rw [labelState]
  split
  · exact fun h => absurd h (by simp)
  · rename_i qs t hask
    obtain ⟨rfl, hg⟩ := Tally.gathers_askStates hask
    exact fun _ => ⟨t, hg, rfl⟩

/-- A writer attends a delivery at which it does not fail. -/
theorem attends_attend {w : Writer P} {d : Delivery} (hd : ¬w.FailsAt d) :
    w.Attends d (w.attend d) := by
  obtain ⟨view, n⟩ := d
  rw [FailsAt, not_not] at hd
  rw [attend]
  cases n with
  | started =>
    simp only [hear, failure_reactionOf] at hd ⊢
    obtain ⟨t, hg, heq⟩ := gathers_labelState hd
    rw [heq]
    exact .started hg
  | advanced =>
    by_cases hnew : view.isNew = true
    · simp only [hear_advanced hnew, failure_reactionOf] at hd ⊢
      obtain ⟨t, hg, heq⟩ := gathers_labelState hd
      have hinform : inform ⟨view, .advanced⟩ = fun p : P => (stateLabels view p).1 := by
        funext p
        simp [inform, hnew]
      rw [if_pos hd, heq, ← hinform]
      exact .discovered hnew hg
    · simp only [hear, if_neg hnew]
      exact .revisited (Bool.eq_false_iff.mpr hnew)
  | backtracked => exact .moved (.inl rfl)
  | restored => exact .moved (.inr rfl)
  | executing i =>
    simp only [hear, failure_reactionOf] at hd ⊢
    rw [Tally.prepare_eq hd]
    exact .executing
  | executed i next =>
    simp only [hear] at hd ⊢
    split
    · rename_i hask
      rw [hask] at hd
      simp [Reaction.failing] at hd
    · rename_i qs t wanted hask
      obtain ⟨rfl, hg⟩ := Tally.gathers_askBreaks hask
      exact .executed hg
  | constraintHit => exact .written _ (.inl rfl)
  | finished =>
    rw [← attend, w.attend_finished view]
    exact .written _ (.inr rfl)

/-- A writer that attends a delivery informs its providers of it, each by itself. -/
lemma Attends.providers {w w' : Writer P} {d : Delivery} (h : w.Attends d w') :
    w'.providers = w.providers.map (inform d) := by
  have same : (∀ p : P, inform d p = p) → w.providers = w.providers.map (inform d) :=
    fun hsame => (List.map_id' _).symm.trans (List.map_congr_left fun p _ => (hsame p).symm)
  cases h with
  | started | discovered | executing | executed => rfl
  | revisited hnew => exact same fun p => by simp [inform, hnew]
  | moved hn => exact same fun p => by rcases hn with rfl | rfl <;> rfl
  | written name hn =>
    rw [(w.writeJournal_fst .empty name).1]
    exact same fun p => by rcases hn with rfl | rfl <;> rfl

/-- A writer that fails at no delivery of a log has informed its providers of it. -/
theorem providers_heard {w : Writer P} {log : Log} (h : w.Takes log) :
    (w.heard log).providers = w.providers.map fun p => informed p log := by
  induction log with
  | nil => exact (List.map_id' _).symm
  | cons d log ih =>
    rw [heard, (attends_attend (h d log (List.suffix_refl _))).providers,
      ih (h.of_suffix (List.suffix_cons d log)), List.map_map]
    rfl

/-- What a writer has recorded are the labels of the states of a log, and it keeps what waits for
the next new state. -/
structure Faithful (ps : List P) (log : Log) (w : Writer P) : Prop where
  providers : w.providers = ps.map fun p => informed p log
  waiting : w.tally.registry.Lists w.tally.current (Log.gathered ps log)
  sound : ∀ r ∈ w.journal.states, ∃ d earlier, d :: earlier <:+ log ∧
    d.labelled? = some r.id ∧ w.tally.registry.Lists r.indices (Log.held ps d earlier)
  complete : ∀ d earlier, d :: earlier <:+ log → ∀ id, d.labelled? = some id →
    Log.held ps d earlier ≠ [] → ∃ r ∈ w.journal.states, r.id = id ∧
      w.tally.registry.Lists r.indices (Log.held ps d earlier)

/-- Nothing has been gathered or recorded. -/
def Blank (w : Writer P) : Prop := w.tally.current = [] ∧ w.journal.states = #[]

lemma Faithful.of_blank {w : Writer P} (h : w.Blank) : Faithful w.providers [] w :=
  ⟨(List.map_id' _).symm, ⟨by simp [Log.gathered], by simp [h.1]⟩, by simp [h.2],
    fun d earlier hs => absurd (List.suffix_nil.mp hs) (by simp)⟩

variable {ps : List P} {log : Log} {w : Writer P} {d : Delivery}

/-- A delivery at which no state is labelled keeps what is recorded. -/
lemma Faithful.pass (h : Faithful ps log w) {w' : Writer P} (hd : d.labelled? = none)
    (hp : w'.providers = ps.map fun p => informed p (d :: log))
    (hw : w'.tally.registry.Lists w'.tally.current (Log.gathered ps (d :: log)))
    (hj : w'.journal.states = w.journal.states)
    (hg : w.tally.registry.labels <+: w'.tally.registry.labels) : Faithful ps (d :: log) w' := by
  refine ⟨hp, hw, ?_, ?_⟩
  · intro r hr
    rw [hj] at hr
    obtain ⟨d', earlier, hs, hid, hl⟩ := h.sound r hr
    exact ⟨d', earlier, hs.trans (List.suffix_cons d log), hid, hl.mono hg⟩
  · intro d' earlier hs id hid hex
    rcases List.suffix_cons_iff.mp hs with heq | hs
    · obtain ⟨rfl, -⟩ := List.cons.inj heq
      simp [hd] at hid
    · obtain ⟨r, hr, hrid, hl⟩ := h.complete d' earlier hs id hid hex
      exact ⟨r, hj ▸ hr, hrid, hl.mono hg⟩

/-- A delivery at which a state is labelled records it. -/
lemma Faithful.record (h : Faithful ps log w) {w' : Writer P} {id : Int} (indices : List Nat)
    (hd : d.labelled? = some id) (hp : w'.providers = ps.map fun p => informed p (d :: log))
    (hc : w'.tally.current = []) (hl : w'.tally.registry.Lists indices (Log.held ps d log))
    (hj : w'.journal.states = (w.journal.label ⟨id, indices⟩).states)
    (hg : w.tally.registry.labels <+: w'.tally.registry.labels) : Faithful ps (d :: log) w' := by
  have hnone : Log.gathered ps (d :: log) = [] := by
    rw [Log.gathered]
    rw [Delivery.labelled?] at hd
    cases hn : d.notice <;> simp_all
  refine ⟨hp, ⟨by simp [hnone], by simp [hc]⟩, ?_, ?_⟩
  · intro r hr
    rw [hj] at hr
    rcases Journal.mem_of_mem_label hr with hr | rfl
    · obtain ⟨d', earlier, hs, hid, hl⟩ := h.sound r hr
      exact ⟨d', earlier, hs.trans (List.suffix_cons d log), hid, hl.mono hg⟩
    · exact ⟨d, log, List.suffix_refl _, hd, hl⟩
  · intro d' earlier hs id' hid hex
    rw [hj]
    rcases List.suffix_cons_iff.mp hs with heq | hs
    · obtain ⟨rfl, rfl⟩ := List.cons.inj heq
      obtain rfl : id = id' := Option.some.inj (hd.symm.trans hid)
      obtain ⟨l, hex⟩ := List.exists_mem_of_ne_nil _ hex
      obtain ⟨i, hi, -⟩ := hl.every l hex
      exact ⟨_, Journal.mem_label_self (List.ne_nil_of_mem hi), rfl, hl⟩
    · obtain ⟨r, hr, hrid, hl⟩ := h.complete d' earlier hs id' hid hex
      exact ⟨r, Journal.mem_label_of_mem hr, hrid, hl.mono hg⟩

/-- A delivery that is nothing to the labels. -/
lemma Faithful.idle (h : Faithful ps log w) {w' : Writer P} (hd : d.labelled? = none)
    (hpass : Log.passes d = true) (hp : w'.providers = ps.map fun p => informed p (d :: log))
    (ht : w'.tally = w.tally) (hj : w'.journal.states = w.journal.states) :
    Faithful ps (d :: log) w' := by
  refine h.pass hd hp ?_ hj (ht ▸ List.prefix_refl _)
  rw [ht, Log.gathered_of_passes hpass]
  exact h.waiting

/-- A writer that attends a delivery stays faithful.

**Proof sketch.** At the start and at a new state the providers are asked for its labels, and a
record is made; after an instruction the gathered labels are replaced; any other delivery leaves
them alone. -/
theorem Faithful.attends (h : Faithful ps log w) {w' : Writer P} (ha : w.Attends d w') :
    Faithful ps (d :: log) w' := by
  have hnamed : ∀ view : View, w.providers.flatMap (names view) =
      ps.flatMap fun p => names view (informed p log) := by
    intro view
    rw [h.providers, List.flatMap_map]
  have hp : w'.providers = ps.map fun p => informed p (d :: log) := by
    rw [ha.providers, h.providers, List.map_map]
    rfl
  cases ha with
  | started hg =>
    have hlists := hg.lists w.tally.lists_clear
    rw [List.nil_append, hnamed] at hlists
    exact h.record _ rfl hp rfl hlists rfl hg.grows
  | @discovered view t hnew hg =>
    have hlists := hg.lists h.waiting
    rw [hnamed] at hlists
    have hid : (⟨view, .advanced⟩ : Delivery).labelled? = some view.stateId := by
      simp [Delivery.labelled?, hnew]
    exact h.record t.current hid hp rfl hlists (by simp) hg.grows
  | revisited hnew =>
    exact h.idle (by simp [Delivery.labelled?, hnew]) (by simp [Log.passes, hnew]) hp rfl (by simp)
  | moved hn =>
    rcases hn with rfl | rfl <;> exact h.idle rfl rfl hp rfl (by simp)
  | executing => exact h.pass rfl hp h.waiting rfl (List.prefix_refl _)
  | executed hg =>
    refine h.pass rfl hp ?_ rfl hg.grows
    have hlists := hg.lists w.tally.lists_clear
    rwa [List.nil_append, h.providers, List.flatMap_map] at hlists
  | written name hn =>
    obtain ⟨-, ht, hj⟩ := w.writeJournal_fst .empty name
    rcases hn with rfl | rfl <;> exact h.idle rfl rfl hp ht hj

/-- A writer is faithful to what it has heard. -/
theorem faithful_heard (hb : w.Blank) (h : w.Takes log) :
    Faithful w.providers log (w.heard log) := by
  induction log with
  | nil => exact .of_blank hb
  | cons d log ih =>
    exact (ih (h.of_suffix (List.suffix_cons d log))).attends
      (attends_attend (h d log (List.suffix_refl _)))

end Writer

namespace Log

/-- A log labels a state at one delivery only. -/
lemma Regular.eq_of_labelled {log : Log} (h : Regular log) {d d' : Delivery} {earlier earlier' : Log}
    (hd : d :: earlier <:+ log) (hd' : d' :: earlier' <:+ log) (hnew : discovers d)
    (hid : d'.labelled? = some d.view.stateId) : d = d' ∧ earlier = earlier' := by
  have hnum := (h d earlier hd).numbered hnew.1 hnew.2
  rw [Delivery.labelled?] at hid
  split at hid
  · have := Option.some.inj hid
    omega
  · rename_i hadv
    split at hid
    · rename_i hn
      exact h.eq_of_stateId hd hd' hnew ⟨hadv, hn⟩ (Option.some.inj hid).symm
    · simp at hid
  · simp at hid

end Log

end StateAtlas
