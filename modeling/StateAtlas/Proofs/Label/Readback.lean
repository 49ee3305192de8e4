import StateAtlas.Proofs.Code.Request
import StateAtlas.Proofs.Label.Gathering
import StateAtlas.Proofs.Label.Lab
import StateAtlas.Proofs.Program.Coins
import StateAtlas.Proofs.Provider.Naming

set_option autoImplicit false

/-!
# What a text journal tells of a search

The text of a text journal can be read back at every moment of a search, even of one that a failure
has ended: the names of all labels are words, a line has the ascending indices of labels, and the
lines come in the order in which their states were discovered. This takes for granted that an
integer is written in digits, or else as a word: the text that an integer has by itself stands in a
name as it is.

## Main definitions

* `StateAtlas.Tally.Tidy` — the gathered indices ascend and are those of labels of some sort.
* `StateAtlas.Provider.Worded` — what a provider writes of values at a delivery is a word.
* `StateAtlas.Writer.Legible` — what a writer with a text journal has recorded is in order.

## Main results

* `StateAtlas.Log.Regular.descending` — states are labelled in the order of their numbers.
* `StateAtlas.Writer.legible_heard` — a writer that has not heard anything yet stays legible.
* `StateAtlas.Exploration.text_readable` — the text of a journal tells the names of the labels and
  the labelled states.
-/

namespace StateAtlas

variable {σ L κ P : Type}

/-! ## The numbers of labelled states -/

namespace Log

/-- The numbers of the states that are labelled in a log, the last one first. -/
def labelledIds (log : Log) : List Int := log.filterMap Delivery.labelled?

/-- A state has its number from the states discovered before. -/
lemma Regular.labelledId_bounds {log : Log} (h : Regular log) {id : Int}
    (hid : id ∈ labelledIds log) :
    -1 ≤ id ∧ id < ((discovered log).length : Int) := by
  obtain ⟨d, hd, hlabel⟩ := List.mem_filterMap.mp hid
  obtain ⟨later, earlier, rfl⟩ := List.append_of_mem hd
  have hs : d :: earlier <:+ later ++ d :: earlier := List.suffix_append _ _
  have hgrow := length_discovered_of_suffix hs
  rw [Delivery.labelled?] at hlabel
  split at hlabel
  · obtain rfl := Option.some.inj hlabel
    omega
  · rename_i hadv
    split at hlabel
    · rename_i hnew
      have hnum := (h d earlier hs).numbered hadv hnew
      have hlen : (discovered (d :: earlier)).length = (discovered earlier).length + 1 := by
        simp [discovered, hadv, hnew]
      obtain rfl := Option.some.inj hlabel
      omega
    · simp at hlabel
  · simp at hlabel

/-- The states of a log are labelled in the order of their numbers.

**Proof sketch.** Induction on the log. The start comes first, and a new state has a number above
those of all states before. -/
theorem Regular.descending {log : Log} (h : Regular log) : (labelledIds log).Pairwise (· > ·) := by
  induction log with
  | nil => exact List.Pairwise.nil
  | cons d log ih =>
    have hlog := h.of_suffix (List.suffix_cons d log)
    have hd := h d log (List.suffix_refl _)
    rw [labelledIds, List.filterMap_cons]
    cases hlabel : d.labelled? with
    | none => exact ih hlog
    | some id =>
      refine List.pairwise_cons.mpr ⟨fun id' hid' => ?_, ih hlog⟩
      have hbound := (hlog.labelledId_bounds hid').2
      rw [Delivery.labelled?] at hlabel
      split at hlabel
      · rename_i hstart
        rw [hd.opens hstart] at hid'
        simp at hid'
      · rename_i hadv
        split at hlabel
        · rename_i hnew
          have hnum := hd.numbered hadv hnew
          obtain rfl := Option.some.inj hlabel
          omega
        · simp at hlabel
      · simp at hlabel

end Log

/-! ## Tidy tallies -/

/-- An index finds its place among ascending ones. -/
lemma pairwise_insertIndex (i : Nat) {js : List Nat} (h : js.Pairwise (· < ·)) :
    (insertIndex i js).Pairwise (· < ·) := by
  induction js with
  | nil => simp [insertIndex]
  | cons j js ih =>
    obtain ⟨hj, hjs⟩ := List.pairwise_cons.mp h
    rw [insertIndex]
    split
    · rename_i hij
      refine List.pairwise_cons.mpr ⟨fun k hk => ?_, h⟩
      rcases List.mem_cons.mp hk with rfl | hk
      · exact hij
      · exact hij.trans (hj k hk)
    · split
      · exact h
      · refine List.pairwise_cons.mpr ⟨fun k hk => ?_, ih hjs⟩
        rcases mem_insertIndex.mp hk with rfl | hk
        · omega
        · exact hj k hk

/-- A label of a registry was there before, or has just been interned. -/
lemma Registry.mem_of_mem_intern {r : Registry} {l l' : Label} (h : l' ∈ (r.intern l).2.labels) :
    l' ∈ r.labels ∨ l' = l := by
  rw [intern] at h
  split at h
  · exact .inl h
  · simpa using h

namespace Tally

/-- The labels of a tally are of some sort, and the gathered indices ascend and are those of
labels. -/
structure Tidy (proper : Label → Prop) (t : Tally) : Prop where
  proper : ∀ l ∈ t.registry.labels, proper l
  ascending : t.current.Pairwise (· < ·)
  known : ∀ i ∈ t.current, i < t.registry.labels.length

variable {proper : Label → Prop} {t : Tally}

lemma tidy_empty : empty.Tidy proper :=
  ⟨by simp [empty, Registry.empty], by simp [empty], by simp [empty]⟩

lemma Tidy.clear (h : t.Tidy proper) : t.clear.Tidy proper :=
  ⟨h.proper, by simp [Tally.clear], by simp [Tally.clear]⟩

/-- A label is gathered. -/
lemma Tidy.add (h : t.Tidy proper) {l : Label} (hl : proper l) : (t.add l).Tidy proper := by
  obtain ⟨hindex, hgrows⟩ := t.registry.intern_spec l
  refine ⟨fun l' hl' => ?_, pairwise_insertIndex _ h.ascending, fun i hi => ?_⟩
  · rcases Registry.mem_of_mem_intern hl' with hl' | rfl
    · exact h.proper l' hl'
    · exact hl
  · rcases mem_insertIndex.mp hi with rfl | hi
    · exact (List.getElem?_eq_some_iff.mp (Registry.indexOf?_eq_some.mp hindex)).1
    · exact (h.known i hi).trans_le hgrows.length_le

/-- The labels of a set are gathered. -/
lemma Tidy.addAll (h : t.Tidy proper) {labels : List Label} (hl : ∀ l ∈ labels, proper l) :
    (t.addAll labels).Tidy proper := by
  have fold : ∀ (ls : List Label) (t : Tally), t.Tidy proper → (∀ l ∈ ls, proper l) →
      (ls.foldl Tally.add t).Tidy proper := by
    intro ls
    induction ls with
    | nil => exact fun t ht _ => ht
    | cons l ls ih =>
      exact fun t ht hls => ih (t.add l) (ht.add (hls l List.mem_cons_self))
        fun l' hl' => hls l' (List.mem_cons_of_mem l hl')
  exact fold _ t h fun l hl' => hl l (Label.mem_arrange.mp hl')

variable [LabelProvider P] {shown : Scene → Prop} {ran : Instruction → Prop} {good : P → Prop}

open LabelProvider

/-- Providers that are asked for the labels of a state keep a tally tidy, even if one of them
fails. -/
lemma Tidy.askStates (U : Upholds shown ran good proper) {view : View}
    (hs : shown view.scene) {ps : List P} : ∀ {t : Tally},
    t.Tidy proper → (∀ p ∈ ps, good p) → (askStates view ps t).2.1.Tidy proper ∧
      ∀ p ∈ (askStates view ps t).1, good p := by
  induction ps with
  | nil => exact fun ht _ => ⟨ht, by simp [Tally.askStates]⟩
  | cons p ps ih =>
    intro t ht hps
    obtain ⟨hp, hrest⟩ := List.forall_mem_cons.mp hps
    have hkept := U.states view p hs hp
    rw [Tally.askStates]
    split
    · rename_i q f hq
      rw [hq] at hkept
      exact ⟨ht, List.forall_mem_cons.mpr ⟨hkept.1, hrest⟩⟩
    · rename_i q labels hq
      rw [hq] at hkept
      obtain ⟨htidy, hgood⟩ := ih (ht.addAll hkept.2) hrest
      exact ⟨htidy, List.forall_mem_cons.mpr ⟨hkept.1, hgood⟩⟩

/-- A provider that is asked about a step keeps a tally tidy. -/
lemma Tidy.askBreak (U : Upholds shown ran good proper) (ht : t.Tidy proper)
    (s : Scene) {executed : Instruction} (hi : ran executed) (next : Option Instruction) {p : P}
    (hp : good p) :
    (askBreak s executed next p t).2.1.Tidy proper ∧ good (askBreak s executed next p t).1 := by
  have hafter := U.after s executed p hi hp
  rw [Tally.askBreak]
  split
  · rename_i q f hq
    rw [hq] at hafter
    exact ⟨ht, hafter.1⟩
  · rename_i q labels hq
    rw [hq] at hafter
    have ht := ht.addAll hafter.2
    cases next with
    | none => exact ⟨ht, hafter.1⟩
    | some i =>
      have hnext := U.next s i q hafter.1
      simp only
      split
      · rename_i q' f hq'
        rw [hq'] at hnext
        exact ⟨ht, hnext.1⟩
      · rename_i q' labels' hq'
        rw [hq'] at hnext
        exact ⟨ht.addAll hnext.2, hnext.1⟩

/-- Providers that are asked about a step keep a tally tidy, even if one of them fails. -/
lemma Tidy.askBreaks (U : Upholds shown ran good proper) (s : Scene)
    {executed : Instruction} (hi : ran executed) (next : Option Instruction) {ps : List P} :
    ∀ {t : Tally}, t.Tidy proper →
      (∀ p ∈ ps, good p) → (askBreaks s executed next ps t).2.1.Tidy proper ∧
        ∀ p ∈ (askBreaks s executed next ps t).1, good p := by
  induction ps with
  | nil => exact fun ht _ => ⟨ht, by simp [Tally.askBreaks]⟩
  | cons p ps ih =>
    intro t ht hps
    obtain ⟨hp, hrest⟩ := List.forall_mem_cons.mp hps
    rw [Tally.askBreaks]
    split
    · have hkept := ht.askBreak U s hi next hp
      split
      · rename_i q u f hq
        rw [hq] at hkept
        exact ⟨hkept.1, List.forall_mem_cons.mpr ⟨hkept.2, hrest⟩⟩
      · rename_i q u wanted hq
        rw [hq] at hkept
        obtain ⟨htidy, hgood⟩ := ih hkept.1 hrest
        exact ⟨htidy, List.forall_mem_cons.mpr ⟨hkept.2, hgood⟩⟩
    · obtain ⟨htidy, hgood⟩ := ih ht hrest
      exact ⟨htidy, List.forall_mem_cons.mpr ⟨hp, hgood⟩⟩

/-- Providers that take note of an instruction stay of their sort. -/
lemma good_prepare (U : Upholds shown ran good proper) (s : Scene) (i : Instruction) {ps : List P}
    (h : ∀ p ∈ ps, good p) :
    ∀ p ∈ (prepare s i ps).1, good p := by
  induction ps with
  | nil => simp [prepare]
  | cons p ps ih =>
    obtain ⟨hp, hrest⟩ := List.forall_mem_cons.mp h
    rw [prepare]
    split
    · have hkept := U.before s i p hp
      split
      · rename_i q f hq
        rw [hq] at hkept
        exact List.forall_mem_cons.mpr ⟨hkept, hrest⟩
      · rename_i q hq
        rw [hq] at hkept
        exact List.forall_mem_cons.mpr ⟨hkept, ih hrest⟩
    · exact List.forall_mem_cons.mpr ⟨hp, ih hrest⟩

end Tally

/-- What a provider writes of values at a delivery consists of certain characters: of fields in a state
that is labelled, and of a return. -/
def Provider.Worded (ok : Char → Prop) (p : Provider) (d : Delivery) : Prop :=
  (∀ id, d.labelled? = some id → p.Clear ok d.view.scene) ∧
    ∀ i next, d.notice = .executed i next → p.Returns ok i

/-- Nothing is left to be asked of what is written if all characters will do. -/
lemma Provider.worded_of_forall {ok : Char → Prop} (h : ∀ c, ok c) (p : Provider) (d : Delivery) :
    p.Worded ok d := by
  have value : ∀ v : Value, v.Worded ok := fun _ _ _ _ _ _ c _ => h c
  refine ⟨fun _ _ => ?_, fun i _ _ => ?_⟩
  · cases p with
    | field q => exact fun _ _ _ v _ => value v
    | _ => exact trivial
  · cases p with
    | function q => exact fun _ _ _ => value i.returnValue
    | _ => exact trivial

/-! ## Legible writers -/

namespace Writer

/-- What a writer with a text journal has recorded of a log is in order: every recorded state has
labels, with ascending indices, and the states come in the order in which they were labelled. -/
structure Legible (good : P → Prop) (proper : Label → Prop) (log : Log) (w : Writer P) : Prop where
  providers : ∀ p ∈ w.providers, good p
  tally : w.tally.Tidy proper
  text : w.journal = .text w.journal.states
  records : ∀ r ∈ w.journal.states, r.indices ≠ [] ∧ r.indices.Pairwise (· < ·) ∧
    ∀ i ∈ r.indices, i < w.tally.registry.labels.length
  ids : (w.journal.states.toList.map LabeledState.id).reverse.Sublist (Log.labelledIds log)

variable {good : P → Prop} {proper : Label → Prop} {log : Log} {w : Writer P}

lemma legible_new {ps : List P} (dir : Path) (h : ∀ p ∈ ps, good p) :
    Legible good proper [] (new ps (.ofFormat .text) dir) :=
  ⟨h, Tally.tidy_empty, rfl, by simp [new, Journal.ofFormat, Journal.states],
    by simp [new, Journal.ofFormat, Journal.states]⟩

/-- A writer that records nothing stays legible. -/
lemma Legible.keep (h : Legible good proper log w) (d : Delivery) {w' : Writer P}
    (hp : ∀ p ∈ w'.providers, good p) (ht : w'.tally.Tidy proper) (hj : w'.journal = w.journal)
    (hg : w.tally.registry.labels <+: w'.tally.registry.labels) :
    Legible good proper (d :: log) w' := by
  refine ⟨hp, ht, by rw [hj]; exact h.text, fun r hr => ?_, ?_⟩
  · obtain ⟨hne, hasc, hknown⟩ := h.records r (hj ▸ hr)
    exact ⟨hne, hasc, fun i hi => (hknown i hi).trans_le hg.length_le⟩
  · rw [hj]
    exact h.ids.trans ((List.sublist_cons_self d log).filterMap _)

/-- A journal of this kind only records labels. -/
lemma Legible.advance (h : Legible good proper log w) (id : Int) : w.journal.advance id = w.journal := by
  rw [h.text]
  rfl

lemma Legible.move (h : Legible good proper log w) (id : Int) : w.journal.move id = w.journal := by
  rw [h.text]
  rfl

/-- Writing the journal to a file changes nothing. -/
lemma Legible.writeJournal (h : Legible good proper log w) (e : Surroundings) (name : String) :
    (w.writeJournal e name).1 = w := by
  unfold Writer.writeJournal
  split
  · rename_i states written hj
    rw [h.text] at hj
    simp at hj
  · rfl

variable [LabelProvider P] {shown : Scene → Prop} {ran : Instruction → Prop}

/-- A writer that labels a state stays legible, even if a provider fails. -/
lemma Legible.labelState (U : LabelProvider.Upholds shown ran good proper)
    (h : Legible good proper log w) {view : View} (hs : shown view.scene) {d : Delivery} {id : Int}
    (hd : d.labelled? = some id) :
    Legible good proper (d :: log) (w.labelState view id).1 := by
  obtain ⟨ht, hp⟩ := h.tally.askStates U hs h.providers
  have hg := Tally.askStates_grows view w.providers w.tally
  rw [Writer.labelState]
  split
  · rename_i qs t f hask
    rw [hask] at ht hp hg
    exact h.keep d hp ht rfl hg
  · rename_i qs t hask
    rw [hask] at ht hp hg
    have hids : Log.labelledIds (d :: log) = id :: Log.labelledIds log := by
      simp [Log.labelledIds, hd]
    by_cases hnone : t.current = []
    · refine h.keep d hp ht.clear ?_ hg
      rw [h.text]
      simp [Journal.label, hnone]
    · have hj : w.journal.label ⟨id, t.current⟩ =
          .text (w.journal.states.push ⟨id, t.current⟩) := by
        rw [h.text]
        simp [Journal.label, Journal.states, hnone]
      refine ⟨hp, ht.clear, by simp only [hj]; rfl, fun r hr => ?_, ?_⟩
      · simp only [hj, Journal.states, Array.mem_push] at hr
        rcases hr with hr | rfl
        · obtain ⟨hne, hasc, hknown⟩ := h.records r hr
          exact ⟨hne, hasc, fun i hi => (hknown i hi).trans_le hg.length_le⟩
        · exact ⟨hnone, ht.ascending, ht.known⟩
      · simp only [hj, Journal.states, Array.toList_push, List.map_append, List.map_cons,
          List.map_nil, List.reverse_append, List.reverse_cons, List.reverse_nil, List.nil_append,
          List.cons_append, hids]
        exact h.ids.cons_cons id

/-- A writer stays legible at every delivery, even if it fails there.

**Proof sketch.** One case for each notice. -/
lemma Legible.attend (U : LabelProvider.Upholds shown ran good proper)
    (h : Legible good proper log w) {d : Delivery}
    (hs : ∀ id, d.labelled? = some id → shown d.view.scene)
    (hi : ∀ i next, d.notice = .executed i next → ran i) :
    Legible good proper (d :: log) (w.attend d) := by
  obtain ⟨view, n⟩ := d
  rw [Writer.attend]
  have idle : Legible good proper (⟨view, n⟩ :: log) w :=
    h.keep _ h.providers h.tally rfl (List.prefix_refl _)
  cases n with
  | started =>
    have hclear : Legible good proper log { w with tally := w.tally.clear } :=
      ⟨h.providers, h.tally.clear, h.text, h.records, h.ids⟩
    exact hclear.labelState U (hs _ rfl) rfl
  | advanced =>
    by_cases hnew : view.isNew = true
    · have hd : (⟨view, .advanced⟩ : Delivery).labelled? = some view.stateId := by
        simp [Delivery.labelled?, hnew]
      have hlabel := h.labelState U (hs _ hd) hd
      simp only [hear_advanced hnew, hlabel.advance]
      split <;> exact hlabel
    · simpa only [hear, if_neg hnew, h.advance] using idle
  | backtracked => simpa only [hear, h.move] using idle
  | restored => simpa only [hear, h.move] using idle
  | executing i =>
    exact h.keep _ (Tally.good_prepare U view.scene i h.providers) h.tally rfl (List.prefix_refl _)
  | executed i next =>
    obtain ⟨ht, hp⟩ := h.tally.clear.askBreaks U view.scene (hi i next rfl) next h.providers
    have hg := Tally.askBreaks_grows view.scene i next w.providers w.tally.clear
    simp only [hear]
    split
    · rename_i hask
      rw [hask] at ht hp hg
      exact h.keep _ hp ht rfl hg
    · rename_i hask
      rw [hask] at ht hp hg
      exact h.keep _ hp ht rfl hg
  | constraintHit => simpa only [hear, h.writeJournal] using idle
  | finished =>
    rw [← Writer.attend, w.attend_finished view, h.writeJournal]
    exact idle

/-- A writer that has not heard anything yet stays legible, as long as it is shown certain scenes and
instructions only. -/
theorem legible_heard (U : LabelProvider.Upholds shown ran good proper)
    (h : Legible good proper [] w) {log : Log}
    (hs : ∀ d ∈ log, ∀ id, d.labelled? = some id → shown d.view.scene)
    (hi : ∀ d ∈ log, ∀ i next, d.notice = .executed i next → ran i) :
    Legible good proper log (w.heard log) := by
  induction log with
  | nil => exact h
  | cons d log ih =>
    obtain ⟨hd, hs⟩ := List.forall_mem_cons.mp hs
    obtain ⟨hd', hi⟩ := List.forall_mem_cons.mp hi
    exact (ih hs hi).attend U hd hd'

/-- A writer of text stays legible, with labels of characters of which all that its providers write of
values consists. -/
theorem legible_of_worded {ok : Char → Prop} (hok : ∀ c, isLabelChar c = true → ok c)
    {ps : List Provider} (dir : Path) (hps : ∀ p ∈ ps, p.Configured) {log : Log}
    (h : ∀ p ∈ ps, ∀ d ∈ log, p.Worded ok d) :
    ∃ good, Legible good (Label.Proper ok) log ((new ps (.ofFormat .text) dir).heard log) := by
  let shown (s : Scene) : Prop := ∃ d ∈ log, (∃ id, d.labelled? = some id) ∧ d.view.scene = s
  let ran (i : Instruction) : Prop := ∃ d ∈ log, ∃ next, d.notice = .executed i next
  refine ⟨_, legible_heard (Provider.upholds hok shown ran) (legible_new dir fun p hp => ?_)
    (fun d hd id hid => ⟨d, hd, ⟨id, hid⟩, rfl⟩) fun d hd i next hi => ⟨d, hd, next, hi⟩⟩
  refine ⟨hps p hp, ?_, ?_⟩
  · rintro _ ⟨d, hd, ⟨id, hid⟩, rfl⟩
    exact (h p hp d hd).1 id hid
  · rintro i ⟨d, hd, next, hi⟩
    exact (h p hp d hd).2 i next hi

/-- The text of a legible writer is read back, if no quote and no line break stands in a name. -/
lemma Legible.read_render {w : Writer Provider} {good : Provider → Prop}
    (h : Legible good (Label.Proper fun c => c ≠ '"' ∧ c ≠ '\n') log w) : Lab.read? w.render =
      some (w.tally.registry.labels.map Label.name, w.journal.states.toList) := by
  rw [Writer.render, h.text]
  refine Lab.read?_render (fun l hl => ?_) fun s hs => (h.records s hs).1
  have hl := h.tally.proper l hl
  exact ⟨fun hc => (hl.chars _ hc).1 rfl, fun hc => (hl.chars _ hc).2 rfl⟩

end Writer

/-! ## The text of a search -/

namespace Exploration

variable {Q : Program σ κ} {A : Audience L} [DecidableEq κ]
  {seat : L → Option (Writer Provider)} {name : String} {depthLimit maxStates : Option Int}
  {outside : Scene} {l₀ : L}

/-- The text of a journal at any moment of a search, even of one that a failure has ended. No name of a
label is empty, and all are words of ASCII letters, digits and underscores if the texts that integers
have by themselves are, where the providers write them. The text is read back if there is no quote
and no line break in these: it tells the names in the order of their indices, and the states with
labels. These are the states that have been labelled with something, each with the indices of what
its labels were. Their numbers ascend; they are not below that of the state before the first
boundary, and below the number of states. The indices of a state ascend, and are those of names.

Of other integers the providers write the digits. The text of a named constant stands in a name as it
is, see `text_of_constant`.

**Proof sketch.** The writer is legible, since its providers name proper labels only, and it is
faithful to what it has heard. -/
theorem text_readable {ps : List Provider} {dir : Path} (hA : A.Seats seat)
    (h₀ : seat l₀ = some (.new ps (.ofFormat .text) dir))
    (hps : ∀ p ∈ ps, ∃ k targets, Provider.ofTargets k targets = .ok p) {n : Nat}
    {y : Exploration σ (L × Log) κ}
    (hy : y = after Q A.recorded n (fresh name depthLimit maxStates outside l₀))
    (hlines : ∀ p ∈ ps, ∀ d ∈ y.search.listeners.2, p.Worded (fun c => c ≠ '"' ∧ c ≠ '\n') d) :
    ∃ taken w lines, taken <:+ y.search.listeners.2 ∧
      (y.stage.Sound → taken = y.search.listeners.2) ∧ seat y.search.listeners.1 = some w ∧
      (∀ l ∈ w.tally.registry.labels, l.name ≠ "") ∧
      ((∀ p ∈ ps, ∀ d ∈ y.search.listeners.2,
          p.Worded (fun c => c.isAlphanum = true ∨ c = '_') d) →
        ∀ l ∈ w.tally.registry.labels, ∀ c ∈ l.name.toList, c.isAlphanum = true ∨ c = '_') ∧
      Lab.read? w.render = some (w.tally.registry.labels.map Label.name, lines) ∧
      (∀ d earlier, d :: earlier <:+ taken → ∀ id, d.labelled? = some id →
        Log.held ps d earlier ≠ [] → ∃ r ∈ lines, r.id = id ∧
          w.tally.registry.Lists r.indices (Log.held ps d earlier)) ∧
      (∀ r ∈ lines, ∃ d earlier, d :: earlier <:+ taken ∧ d.labelled? = some r.id ∧
        Log.held ps d earlier ≠ [] ∧ w.tally.registry.Lists r.indices (Log.held ps d earlier)) ∧
      (lines.map LabeledState.id).Pairwise (· < ·) ∧
      ∀ r ∈ lines, -1 ≤ r.id ∧ r.id < (y.search.seen.size : Int) ∧ r.indices ≠ [] ∧
        r.indices.Pairwise (· < ·) ∧
        ∀ i ∈ r.indices, i < (w.tally.registry.labels.map Label.name).length := by
  obtain ⟨taken, w, hp⟩ := present_after Q name depthLimit maxStates outside hA h₀ n
  have hcourse : Log.Course y.search.listeners.2 y.search.seen.size (phase y.search y.stage) :=
    hy ▸ course_after n
  rw [← hy] at hp
  have hconfigured : ∀ p ∈ ps, p.Configured := fun p hmem => by
    obtain ⟨k, targets, hk⟩ := hps p hmem
    exact Provider.configured_of_ofTargets hk
  -- what the writer has heard, with or without the delivery at which the search failed
  obtain ⟨heard, hheard, rfl⟩ : ∃ heard, heard <:+ y.search.listeners.2 ∧
      w = (Writer.new ps (.ofFormat .text) dir).heard heard := by
    rcases hp.heard with hw | hw
    · exact ⟨taken, hp.suffix, hw⟩
    · exact ⟨_, List.suffix_refl _, hw⟩
  have hplain : ∀ c, isLabelChar c = true → c ≠ '"' ∧ c ≠ '\n' := by
    rintro c hc
    constructor <;> rintro rfl <;> simp [isLabelChar] at hc
  obtain ⟨good, hlegible⟩ := Writer.legible_of_worded hplain dir hconfigured
    fun p hp d hd => hlines p hp d (hheard.mem hd)
  have hfaithful := Writer.faithful_heard (w := .new ps (.ofFormat .text) dir) ⟨rfl, rfl⟩ hp.takes
  have hregular := hcourse.regular.of_suffix hheard
  have hsize : (Log.discovered heard).length ≤ y.search.seen.size := by
    have hlen : (Log.discovered y.search.listeners.2).length = y.search.seen.size := by
      simp [hcourse.discovered]
    exact hlen ▸ Log.length_discovered_of_suffix hheard
  refine ⟨taken, _, _, hp.suffix, fun hs => ?_, hp.seated,
    fun l hl => (hlegible.tally.proper l hl).nonempty, fun hworded l hl => ?_, hlegible.read_render,
    ?_, ?_, ?_, ?_⟩
  · obtain ⟨hb, ho⟩ := phase_of_sound hs
    exact (hp.exact hb ho).1.symm
  · obtain ⟨good', hlegible'⟩ := Writer.legible_of_worded (fun c => isLabelChar_iff.mp) dir hconfigured
      fun p hp d hd => hworded p hp d (hheard.mem hd)
    exact (hlegible'.tally.proper l hl).chars
  · intro d earlier hd id hid hheld
    obtain ⟨r, hr, hrid, hlists⟩ := hfaithful.complete d earlier hd id hid hheld
    exact ⟨r, by rw [hp.trails.states]; exact hr.val, hrid, hlists.mono hp.trails.grows⟩
  · intro r hr
    have hr' : r ∈ ((Writer.new ps (.ofFormat .text) dir).heard taken).journal.states := by
      rw [← hp.trails.states]
      exact Array.mem_toList_iff.mp hr
    obtain ⟨d, earlier, hd, hid, hlists⟩ := hfaithful.sound r hr'
    refine ⟨d, earlier, hd, hid, fun hnone => ?_, hlists.mono hp.trails.grows⟩
    obtain ⟨i, hi⟩ := List.exists_mem_of_ne_nil _ (hlegible.records r (Array.mem_toList_iff.mp hr)).1
    obtain ⟨l, hl, -⟩ := hlists.only i hi
    have hl : l ∈ Log.held ps d earlier := hl
    simp [hnone] at hl
  · rw [← List.pairwise_reverse]
    exact hregular.descending.sublist hlegible.ids
  · intro r hr
    obtain ⟨hne, hasc, hknown⟩ := hlegible.records r (Array.mem_toList_iff.mp hr)
    have hid : r.id ∈ Log.labelledIds heard :=
      hlegible.ids.subset (List.mem_reverse.mpr (List.mem_map_of_mem hr))
    obtain ⟨hlow, hhigh⟩ := hregular.labelledId_bounds hid
    exact ⟨hlow, by omega, hne, hasc, by simpa using hknown⟩

/-! ## The text of two coins -/

/-- The search through the throws of two coins with a writer of text that labels every state. -/
def coinsWritten : Exploration (Nat × Nat) (Listeners Provider × Log) (Nat × Nat) :=
  after coins Listeners.audience.recorded 16
    (fresh "coins" none none .empty
      ⟨[.writer (.new [.initial true, .allDifferent 0] (.ofFormat .text) ⟨"", []⟩)], .empty⟩)

/-- The text of the coins is read back. -/
theorem text_readable_coins : ∃ w lines, Listeners.seat 0 coinsWritten.search.listeners.1 = some w ∧
    Lab.read? w.render = some (w.tally.registry.labels.map Label.name, lines) ∧
    (lines.map LabeledState.id).Pairwise (· < ·) := by
  have hps : ∀ p ∈ [Provider.initial true, .allDifferent 0], ∃ k targets,
      Provider.ofTargets k targets = .ok p := by
    intro p hp
    simp only [List.mem_cons, List.not_mem_nil, or_false] at hp
    rcases hp with rfl | rfl
    · exact ⟨.initial, [], rfl⟩
    · exact ⟨.allDifferent, [], rfl⟩
  have hlines : ∀ p ∈ [Provider.initial true, .allDifferent 0],
      ∀ d ∈ coinsWritten.search.listeners.2, p.Worded (fun c => c ≠ '"' ∧ c ≠ '\n') d := by
    intro p hp d _
    simp only [List.mem_cons, List.not_mem_nil, or_false] at hp
    rcases hp with rfl | rfl <;> exact ⟨fun _ _ => trivial, fun _ _ _ => trivial⟩
  obtain ⟨-, w, lines, -, -, hseat, -, -, hread, -, -, hids, -⟩ :=
    text_readable (Listeners.seats_audience 0) rfl hps (rfl : coinsWritten = _) hlines
  exact ⟨w, lines, hseat, hread, hids⟩

/-! ## The text of a named constant -/

/-- The program that gives a name to a constant with a text by itself:
`from re import IGNORECASE as flags`. -/
def naming : CodeProgram :=
  .ofSteps "prog" []
    (CodeProgram.importSteps "re" "IGNORECASE" "flags" ++ CodeProgram.leaveSteps 14)

/-- The provider for a variable of the module of a program that holds an integer. -/
def watching (key : String) : Provider := .field ⟨false, [⟨"prog." ++ key, "prog", key⟩], .empty⟩

/-- The search of `naming` with a writer of text that watches the named constant. -/
def namingAfter (n : Nat) : Exploration Process (Listeners Provider × Log) (List Frozen.Mark) :=
  after naming.program Listeners.audience.recorded n
    (fresh "prog" none none ⟨.empty, .empty, #[]⟩
      ⟨[.writer (.new [watching "flags"] (.ofFormat .text) ⟨"", []⟩)], .empty⟩)

/-- The text of a named constant stands in a name as it is, with a dot, which is no character of a
label. -/
theorem text_of_constant :
    Provider.ofTargets .integerField ["prog.flags"] = .ok (watching "flags") ∧
      ∃ w, Listeners.seat 0 (namingAfter 30).search.listeners.1 = some w ∧
        ∃ l ∈ w.tally.registry.labels, l.name = "re.IGNORECASE__prog_flags" ∧
          ¬∀ c ∈ l.name.toList, c.isAlphanum = true ∨ c = '_' := by
  have hnames : (Listeners.seat 0 (namingAfter 30).search.listeners.1).map
      (fun w => w.tally.registry.labels.map Label.name) = some ["re.IGNORECASE__prog_flags"] := by
    decide +kernel
  obtain ⟨w, hw, hnames⟩ := Option.map_eq_some_iff.mp hnames
  obtain ⟨l, hl, hname⟩ := List.mem_map.mp (hnames ▸ List.mem_singleton_self _)
  refine ⟨rfl, w, hw, l, hl, hname, fun hall => ?_⟩
  rw [hname] at hall
  exact absurd (hall '.' (by decide +kernel)) (by decide)

end Exploration

end StateAtlas
