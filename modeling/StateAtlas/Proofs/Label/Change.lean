import StateAtlas.Proofs.Code.Request
import StateAtlas.Proofs.Label.Likeness
import StateAtlas.Proofs.Provider.Change
import StateAtlas.Proofs.Search.Transcription

set_option autoImplicit false

/-!
# A state for every new value

A transition ends right after an instruction that changes the value of a watched field, before the
next instruction can change it again, unless no fingerprint of the state can be made. If the state
that is reached is new, its labels are those of the values that the fields have just got.

## Main definitions

* `StateAtlas.Writer.Wishes` — a writer asks for a boundary at a delivery.
* `StateAtlas.Writer.Bears` — what a writer has recorded for a state has a label among it.
* `StateAtlas.Listeners.Serves` — a writer has heard what is on record, and its wishes are.

## Main results

* `StateAtlas.Listeners.serves_after` — every writer of a run serves it.
* `StateAtlas.Exploration.new_state_bears` — a new state has the labels of all watched fields.
* `StateAtlas.Exploration.new_value_gets_state` — a new value of a field gets a state of its own.
* `StateAtlas.Exploration.change_unseen` — not if the instruction renames the owner of the field, or
  if the label is another one and the value is not.
-/

namespace StateAtlas

variable {σ κ P : Type} [LabelProvider P]

/-- None of some deliveries has failed. -/
def Transcript.Clean (T : Transcript) : Prop := ∀ e ∈ T, e.2.failure = none

open LabelProvider Transcript

/-! ## Wishes -/

namespace Writer

/-- A writer asks for a boundary at a delivery, whatever its surroundings. -/
def Wishes (w : Writer P) (d : Delivery) : Prop :=
  ∀ e, (w.hear e d.view d.notice).2.2.breakReason.isSome = true

/-- A writer that does not fail asks for a boundary if one of its providers wants one right after
the instruction that has run. -/
lemma wishes_of_answer {w : Writer P} {d : Delivery} {i : Instruction} {next : Option Instruction}
    {p : P} {labels : List Label} (hd : d.notice = .executed i next) (hp : p ∈ w.providers)
    (hh : handlesTransitions p = true)
    (ha : (breakAfter d.view.scene i p).2 = .ok (some labels)) (hf : ¬w.FailsAt d) :
    w.Wishes d := by
  intro e
  have hasked : .ok (some labels) ∈ Tally.stepAnswers d.view.scene i next w.providers := by
    refine List.mem_flatMap.mpr ⟨p, List.mem_filter.mpr ⟨hp, hh⟩, ?_⟩
    rw [Tally.stepAnswer, ha]
    exact List.mem_cons_self
  rw [FailsAt, not_not, hd, hear_executed, failure_stepReaction] at hf
  rw [hd, hear_executed]
  cases hr : (Tally.fold (Tally.stepAnswers d.view.scene i next w.providers) w.tally.clear).2 with
  | error f => simp [hr, Tally.failure?] at hf
  | ok wanted =>
    have hwanted : wanted = true := (Tally.wanted_of_fold hr).mpr ⟨labels, hasked⟩
    simp [hr, stepReaction, hwanted]

end Writer

namespace Listeners

/-- Listeners none of which fails ask for a boundary if a writer among them does. -/
lemma breakReason_hearAll {d : Delivery} {w : Writer P} (hw : w.Wishes d) :
    ∀ {ls : List (Listener P)} {j : Nat} (e : Surroundings), ls[j]? = some (.writer w) →
      (hearAll d.view d.notice ls e).2.2.failure = none →
        (hearAll d.view d.notice ls e).2.2.breakReason.isSome = true
  | [], j, e, h, _ => by simp at h
  | l :: ls, 0, e, h, hf => by
    obtain rfl : l = .writer w := by simpa using h
    have hwish := hw e
    rw [hearAll, hearOne_writer] at hf ⊢
    simp only at hf ⊢
    split
    · exact hwish
    · cases hr : (w.hear e d.view d.notice).2.2.breakReason with
      | none => simp [hr] at hwish
      | some reason => simp [Reaction.andThen, hr]
  | l :: ls, j + 1, e, h, hf => by
    rw [hearAll] at hf ⊢
    cases hone : hearOne l e d.view d.notice with
    | mk l' rest =>
      obtain ⟨e', r⟩ := rest
      rw [hone] at hf
      simp only at hf ⊢
      by_cases hr : r.failure.isSome = true
      · rw [if_pos hr] at hf
        have hf : r.failure = none := hf
        simp [hf] at hr
      · rw [if_neg hr] at hf ⊢
        have hnone : r.failure = none := by simpa using hr
        have hrest := breakReason_hearAll hw e' (by simpa using h)
          (by simpa [Reaction.andThen, hnone] using hf)
        cases hb : r.breakReason <;> simp [Reaction.andThen, hb, hrest]

/-! ## The writer at a place -/

/-- The writer at a place has heard what is on record, up to a failure, and its wishes are on
record. -/
structure Serves (k : Nat) (w₀ : Writer P) (x : Listeners P × Transcript) : Prop where
  clean : Clean x.2 → seat k x.1 = some (w₀.heard (log x.2)) ∧ w₀.Takes (log x.2)
  failed : ∀ d r T, x.2 = (d, r) :: T → Clean T → r.failure ≠ none → w₀.Takes (log T) ∧
    ∃ w, seat k x.1 = some w ∧
      (w₀.Takes (d :: log T) ∧ w = w₀.heard (d :: log T) ∨ (w₀.heard (log T)).Trails w)
  wishes : ∀ d r T, (d, r) :: T <:+ x.2 → Clean T → r.failure = none →
    (w₀.heard (log T)).Wishes d → r.breakReason.isSome = true

omit [LabelProvider P] in
/-- A writer in its seat is one of the listeners. -/
lemma getElem?_of_seat {k : Nat} {ls : Listeners P} {w : Writer P} (h : seat k ls = some w) :
    ls.members[k]? = some (.writer w) := by
  rw [seat] at h
  split at h
  · rename_i heq
    rw [heq, Option.some.inj h]
  · simp at h

/-- A notice is heard. -/
lemma Serves.hear {k : Nat} {w₀ : Writer P} {x : Listeners P × Transcript} (h : Serves k w₀ x)
    (view : View) (n : Notice) : Serves k w₀ (audience.transcribed.hear x view n).1 := by
  obtain ⟨ls, T⟩ := x
  have hheard : Clean T → _ := fun hT => (seats_audience k).hear view n (h.clean hT).1
  refine ⟨fun hclean => ?_, fun d r T' heq hT hr => ?_, fun d r T' hs hT hr hw => ?_⟩
  · obtain ⟨hr, hT⟩ := List.forall_mem_cons.mp hclean
    obtain ⟨-, htakes⟩ := h.clean hT
    rcases hheard hT with ⟨hseat, hfails⟩ | ⟨-, hfail⟩
    · exact ⟨hseat, htakes.cons fun hf => hfails hf hr⟩
    · exact absurd hr hfail
  · obtain ⟨hd, rfl⟩ := List.cons.inj heq
    obtain ⟨rfl, rfl⟩ := Prod.mk.inj hd
    obtain ⟨-, htakes⟩ := h.clean hT
    refine ⟨htakes, ?_⟩
    rcases hheard hT with ⟨hseat, -⟩ | ⟨hseat, -⟩
    · refine ⟨_, hseat, ?_⟩
      by_cases hf : (w₀.heard (log T)).FailsAt ⟨view, n⟩
      · exact .inr (Writer.trails_of_failsAt hf)
      · exact .inl ⟨htakes.cons hf, rfl⟩
    · exact ⟨_, hseat, .inr (.refl _)⟩
  · rcases List.suffix_cons_iff.mp hs with heq | hs
    · obtain ⟨hd, rfl⟩ := List.cons.inj heq
      obtain ⟨rfl, rfl⟩ := Prod.mk.inj hd
      exact breakReason_hearAll hw _ (getElem?_of_seat (h.clean hT).1) hr
    · exact h.wishes d r T' hs hT hr hw

variable [DecidableEq κ] {Q : Program σ κ} {name : String} {depthLimit maxStates : Option Int}
  {outside : Scene} {l₀ : Listeners P} {w₀ : Writer P} {k : Nat}

variable (Q name depthLimit maxStates outside) in
/-- Every writer of a run serves it. -/
theorem serves_after (h₀ : seat k l₀ = some w₀) (n : Nat) :
    Serves k w₀ (Exploration.transcribedAfter Q audience name depthLimit maxStates outside l₀
      n).search.listeners := by
  refine Exploration.listeners_after (x := Exploration.ofSearch _) trivial ?_
    (fun view n h => h.hear view n) (fun r h => ⟨h.clean, h.failed, h.wishes⟩) n
  exact ⟨fun _ => ⟨h₀, w₀.takes_nil⟩, by simp [Exploration.ofSearch, Search.new],
    fun d r T hs => absurd (List.suffix_nil.mp hs) (by simp)⟩

/-- What a writer of a run has heard is what has been delivered, up to a failure, and what it has
recorded is what has come of that. -/
lemma Serves.present {x : Listeners P × Transcript} (h : Serves k w₀ x) (h₀ : Clean x.2.tail) :
    ∃ taken w, seat k x.1 = some w ∧ w₀.Takes taken ∧ (w₀.heard taken).Trails w ∧
      taken <:+ log x.2 ∧ ∀ T, T <:+ x.2 → Clean T → log T <:+ taken := by
  obtain ⟨ls, T⟩ := x
  by_cases hT : Clean T
  · obtain ⟨hseat, htakes⟩ := h.clean hT
    exact ⟨_, _, hseat, htakes, .refl _, List.suffix_refl _, fun T' hs _ => hs.map _⟩
  · match T, hT with
    | [], hT => exact absurd (by simp [Clean]) hT
    | (d, r) :: T, hT =>
      have hr : r.failure ≠ none := fun hr => hT (List.forall_mem_cons.mpr ⟨hr, h₀⟩)
      obtain ⟨htakes, w, hseat, hw⟩ := h.failed d r T rfl h₀ hr
      -- only what has been delivered before the failure is clean
      have before : ∀ T', T' <:+ (d, r) :: T → Clean T' → T' <:+ T := fun T' hs hclean =>
        (List.suffix_cons_iff.mp hs).resolve_left fun heq =>
          hr (hclean (d, r) (heq ▸ List.mem_cons_self))
      rcases hw with ⟨htakes', rfl⟩ | htrails
      · exact ⟨_, _, hseat, htakes', .refl _, List.suffix_refl _,
          fun T' hs _ => hs.map _⟩
      · exact ⟨_, w, hseat, htakes, htrails, List.suffix_cons _ _,
          fun T' hs hclean => (before T' hs hclean).map _⟩

end Listeners

namespace Writer

/-- What a writer has recorded for a state has a label among it. -/
def Bears (w : Writer P) (id : Int) (l : Label) : Prop :=
  ∀ r ∈ w.journal.states, r.id = id → ∃ i ∈ r.indices, w.tally.registry.indexOf? l = some i

/-- What is held for a new state is recorded for it. -/
lemma bears_of_held {w w₀ : Writer P} {taken all earlier : Log} {d : Delivery} {l : Label}
    (hb : w₀.Blank) (htakes : w₀.Takes taken) (htrails : (w₀.heard taken).Trails w)
    (hs : taken <:+ all) (hreg : all.Regular) (hd : d :: earlier <:+ all)
    (hnew : Log.discovers d)
    (hl : d :: earlier <:+ taken → l ∈ Log.held w₀.providers d earlier) :
    w.Bears d.view.stateId l ∧
      (d :: earlier <:+ taken → ∃ r ∈ w.journal.states, r.id = d.view.stateId) := by
  have hfaith := faithful_heard hb htakes
  refine ⟨fun r hr hid => ?_, fun htaken => ?_⟩
  · rw [htrails.states] at hr
    obtain ⟨d', earlier', hs', hid', hlists⟩ := hfaith.sound r hr
    obtain ⟨rfl, rfl⟩ := hreg.eq_of_labelled hd (hs'.trans hs) hnew (hid ▸ hid')
    obtain ⟨i, hi, hindex⟩ := hlists.every l (hl hs')
    exact ⟨i, hi, Registry.indexOf?_of_grows htrails.grows hindex⟩
  · have hid : d.labelled? = some d.view.stateId := by
      simp [Delivery.labelled?, hnew.1, hnew.2]
    obtain ⟨r, hr, hrid, -⟩ :=
      hfaith.complete d earlier htaken _ hid (List.ne_nil_of_mem (hl htaken))
    exact ⟨r, htrails.states ▸ hr, hrid⟩

/-- A writer that does not fail at a new state has the labels of all fields that a provider of it
watches. -/
lemma mem_names_of_report {w : Writer Provider} {view : View} {q : FieldProvider}
    {spec : FieldSpec} {l : Label} (hnew : view.isNew = true) (hf : ¬w.FailsAt ⟨view, .advanced⟩)
    (hq : Provider.field q ∈ w.providers) (hs : spec ∈ q.fields)
    (hl : q.report? view.scene spec = some (.ok l)) :
    l ∈ names view (Provider.field q) := by
  simp only [FailsAt, not_not, hear_advanced hnew, failure_reactionOf, labelState_snd] at hf
  have hanswer := (Tally.failure?_fold _ _).mp hf
  have hmem : q.stateLabels view.scene ∈ Tally.stateAnswers view w.providers :=
    List.mem_map.mpr ⟨_, hq, rfl⟩
  have hnames : names view (Provider.field q) = Opinion.labels (q.stateLabels view.scene) := rfl
  rw [hnames]
  rw [FieldProvider.stateLabels] at hmem ⊢
  cases hls : q.labelsOf view.scene q.fields with
  | error f =>
    rw [hls] at hmem
    exact absurd hmem (hanswer f)
  | ok ls => exact FieldProvider.mem_labelsOf hl hs hls

end Writer

/-! ## Runs -/

namespace Exploration

variable [DecidableEq κ] {Q : Program σ κ} {name : String} {depthLimit maxStates : Option Int}
  {outside : Scene} {l₀ : Listeners Provider} {w₀ : Writer Provider} {k j n : Nat}
  {q : FieldProvider} {later between earlier : Transcript} {d₀ d : Delivery} {r₀ r : Reaction}
  {i₀ i : Instruction} {next : Option Instruction}

/-- Up to a delivery the writer at a place has heard everything, and it has taken the delivery too
unless a listener has failed there. -/
lemma takes_before (h₀ : Listeners.seat k l₀ = some w₀)
    (h : (transcribedAfter Q Listeners.audience name depthLimit maxStates outside l₀
      n).search.listeners.2 = later ++ (d, r) :: earlier) :
    w₀.Takes (log earlier) ∧ (r.failure = none → ¬(w₀.heard (log earlier)).FailsAt d) := by
  have hserves := Listeners.serves_after Q name depthLimit maxStates outside h₀ n
  have htail : Clean (transcribedAfter Q Listeners.audience name depthLimit maxStates outside l₀
    n).search.listeners.2.tail := (surfaces_after n).1
  obtain ⟨taken, w, -, htakes, -, -, hall⟩ := hserves.present htail
  have hclean : Clean earlier := clean_before h
  have hs : (d, r) :: earlier <:+ (transcribedAfter Q Listeners.audience name depthLimit maxStates
    outside l₀ n).search.listeners.2 := ⟨later, h.symm⟩
  refine ⟨htakes.of_suffix (hall _ ((List.suffix_cons _ _).trans hs) hclean), fun hr => ?_⟩
  exact htakes d (log earlier) (hall _ hs (List.forall_mem_cons.mpr ⟨hr, hclean⟩))

/-- A new state bears the labels of all watched fields, in what has been recorded for it by the
writer at a place; and something has, if it has a label and no listener has failed there. -/
theorem new_state_bears (h₀ : Listeners.seat k l₀ = some w₀) (hb : w₀.Blank)
    (hq : Provider.field q ∈ w₀.providers)
    (h : (transcribedAfter Q Listeners.audience name depthLimit maxStates outside l₀
      n).search.listeners.2 = later ++ (d, r) :: earlier)
    (hnew : Log.discovers d) :
    ∃ w, Listeners.seat k (transcribedAfter Q Listeners.audience name depthLimit maxStates outside
        l₀ n).search.listeners.1 = some w ∧
      ∀ spec ∈ q.fields, ∀ l, q.report? d.view.scene spec = some (.ok l) →
        w.Bears d.view.stateId l ∧
          (r.failure = none → ∃ s ∈ w.journal.states, s.id = d.view.stateId) := by
  have hserves := Listeners.serves_after Q name depthLimit maxStates outside h₀ n
  have htail : Clean (transcribedAfter Q Listeners.audience name depthLimit maxStates outside l₀
    n).search.listeners.2.tail := (surfaces_after n).1
  have hreg := regular_transcribed Q Listeners.audience name depthLimit maxStates outside l₀ n
  obtain ⟨taken, w, hseat, htakes, htrails, hsuffix, hall⟩ := hserves.present htail
  have hs : (d, r) :: earlier <:+ (transcribedAfter Q Listeners.audience name depthLimit maxStates
    outside l₀ n).search.listeners.2 := ⟨later, h.symm⟩
  refine ⟨w, hseat, fun spec hspec l hl => ?_⟩
  -- if the writer has taken the delivery, the label is among those that are held for the state
  have hheld : d :: log earlier <:+ taken → l ∈ Log.held w₀.providers d (log earlier) := by
    intro htaken
    have hfails := htakes d (log earlier) htaken
    have hproviders :=
      Writer.providers_heard (htakes.of_suffix ((List.suffix_cons _ _).trans htaken))
    obtain ⟨previous, hinformed⟩ := exists_informed_field q (log earlier)
    have hmem : Provider.field { q with previous } ∈ (w₀.heard (log earlier)).providers := by
      rw [hproviders, ← hinformed]
      exact List.mem_map_of_mem hq
    rw [Log.held, hnew.1]
    refine List.mem_append_right _ (List.mem_flatMap.mpr ⟨_, hq, ?_⟩)
    rw [hinformed]
    obtain ⟨view, notice⟩ := d
    obtain rfl : notice = .advanced := hnew.1
    exact Writer.mem_names_of_report hnew.2 hfails hmem hspec hl
  obtain ⟨hbears, hexists⟩ := Writer.bears_of_held hb htakes htrails hsuffix hreg
    (hs.map Prod.fst) hnew hheld
  exact ⟨hbears, fun hr => hexists (hall _ hs (List.forall_mem_cons.mpr ⟨hr, clean_before h⟩))⟩

/-- A new value of a watched field gets a state of its own, in every run that has not been ended and
has a label writer with a provider for fields. Let `d₀` be the announcement of an instruction and `d`
its conclusion, without a restored choice in between, and let it be seen to store to the same fields
at both of them. Then the provider wants a boundary right after the instruction if and only if one of
these fields has another value, or has lost or gained one; and this is so if and only if one of them
has another label, or has lost or gained one. If so, and no listener fails there, the next notice is
that of a boundary, at which nothing else has run yet, unless no fingerprint of the boundary can be
made. If the state is new, what the writer has recorded for it has the labels of all watched fields
among it, as they are after the instruction.

An instruction that stores to the name of a module is not seen to store to the fields of the module
any more, see `change_unseen`. Integers that are too long to be written have no label. An integer that
has a text by itself is written as this text, but compared by its value.

**Proof sketch.** Nothing makes the provider forget what it has noted at `d₀`, `informed_announced`,
so that it compares the fields after the instruction with those before it,
`FieldProvider.breakAfter_beforeInstruction`. Its wish is that of the listeners, `serves_after`, which
is granted before anything else runs, `boundary_of_wish`. The labels of the new state are those of
the same values, since nothing has run in between, and what has been said of a new state has been
recorded for it, `new_state_bears`. -/
theorem new_value_gets_state (h₀ : Listeners.seat k l₀ = some w₀) (hb : w₀.Blank)
    (hq : w₀.providers[j]? = some (.field q))
    (h : (transcribedAfter Q Listeners.audience name depthLimit maxStates outside l₀
      n).search.listeners.2 = later ++ (d, r) :: (between ++ (d₀, r₀) :: earlier))
    (hlive : (transcribedAfter Q Listeners.audience name depthLimit maxStates outside l₀
      n).search.terminated = false)
    (hd₀ : d₀.notice = .executing i₀) (hd : d.notice = .executed i next)
    (hbetween : ∀ e ∈ between, (∀ i, e.1.notice ≠ .executing i) ∧ e.1.notice ≠ .restored)
    (howner : ∀ spec ∈ q.fields, spec.covers d.view.scene i = spec.covers d₀.view.scene i) :
    (∃ p answer,
      (w₀.heard (log (between ++ (d₀, r₀) :: earlier))).providers[j]? = some p ∧
        (breakAfter d.view.scene i p).2 = .ok answer ∧
        (answer.isSome = true ↔ q.Alters d₀.view.scene d.view.scene i)) ∧
    ((∀ spec ∈ q.fields, spec.covers d₀.view.scene i = true →
        (q.Writable d₀.view.scene spec ∨ q.Writable d.view.scene spec) ∧
          q.Plain d₀.view.scene spec ∧ q.Plain d.view.scene spec) →
      (q.Alters d₀.view.scene d.view.scene i ↔ q.Changes d₀.view.scene d.view.scene i)) ∧
    (q.Alters d₀.view.scene d.view.scene i → r.failure = none →
      (later = [] ∧ Stranded Q Listeners.audience name depthLimit maxStates outside l₀ n d r
        (between ++ (d₀, r₀) :: earlier)) ∨
      ∃ (rest : Transcript) (d' : Delivery) (r' : Reaction), later = rest ++ [(d', r')] ∧
        d'.notice = .advanced ∧ d'.view.scene = d.view.scene ∧
        (d'.view.isNew = true → ∃ w,
          Listeners.seat k (transcribedAfter Q Listeners.audience name depthLimit maxStates outside
            l₀ n).search.listeners.1 = some w ∧
          ∀ spec ∈ q.fields, ∀ l, q.report? d.view.scene spec = some (.ok l) →
            w.Bears d'.view.stateId l ∧
              (r'.failure = none → ∃ s ∈ w.journal.states, s.id = d'.view.stateId))) := by
  obtain ⟨htakes, hfails⟩ := takes_before h₀ h
  have hlog : log (between ++ (d₀, r₀) :: earlier) = log between ++ d₀ :: log earlier := by
    simp [log]
  have hexecuting : ∀ e ∈ log between, ∀ i, e.notice ≠ .executing i :=
    List.forall_mem_map.mpr fun e he => (hbetween e he).1
  have hrestored : ∀ e ∈ log between, e.notice ≠ .restored :=
    List.forall_mem_map.mpr fun e he => (hbetween e he).2
  -- what has run is what was announced, and the provider has noted the fields before it
  have hadmits : Log.Admits (log between ++ d₀ :: log earlier) d := by
    refine regular_transcribed Q Listeners.audience name depthLimit maxStates outside l₀ n d _ ?_
    rw [h, ← hlog]
    exact ⟨log later, by simp [log]⟩
  obtain ⟨⟨es, hi⟩, -⟩ := hadmits.concluded hd hd₀ hexecuting hrestored
  have hp : (w₀.heard (log (between ++ (d₀, r₀) :: earlier))).providers[j]? =
      some (.field (q.beforeInstruction d₀.view.scene i₀)) := by
    rw [Writer.providers_heard htakes, List.getElem?_map, hq, Option.map_some, hlog,
      informed_announced hd₀ hexecuting]
  obtain ⟨answer, hanswer, hiff⟩ := FieldProvider.breakAfter_beforeInstruction hi howner
  refine ⟨⟨_, answer, hp, hanswer, hiff⟩, FieldProvider.alters_iff_changes, fun halters hr => ?_⟩
  obtain ⟨labels, rfl⟩ := Option.isSome_iff_exists.mp (hiff.mpr halters)
  have hwish : r.breakReason.isSome = true := by
    have hserves := Listeners.serves_after Q name depthLimit maxStates outside h₀ n
    exact hserves.wishes d r _ ⟨later, h.symm⟩ (clean_before h) hr
      (Writer.wishes_of_answer hd (List.mem_of_getElem? hp) rfl hanswer (hfails hr))
  refine (boundary_of_wish h hlive hd hr hwish).imp_right ?_
  rintro ⟨rest, d', r', rfl, hadv, hscene⟩
  refine ⟨rest, d', r', rfl, hadv, hscene, fun hnew => ?_⟩
  rw [List.append_assoc] at h
  rw [← hscene]
  exact new_state_bears h₀ hb (List.mem_of_getElem? hq) h ⟨hadv, hnew⟩

/-! ## Storing a truth value -/

/-- The program that stores `True` to a name, and does nothing else. -/
def storing (key : String) : CodeProgram :=
  .ofSteps "prog" []
    ([⟨0, "RESUME", .number 0, .resume⟩,
      ⟨2, "LOAD_CONST", .constant (.bool true), .loadConstant (.bool true)⟩,
      ⟨4, "STORE_NAME", .text key, .storeName key⟩] ++ CodeProgram.leaveSteps 6)

/-- The field that `storing` stores to. -/
def storedField (key : String) : FieldSpec := ⟨"prog." ++ key, "prog", key⟩

/-- A provider that watches the field that `storing` stores to. -/
def storedFields (key : String) : FieldProvider := ⟨true, [storedField key], .empty⟩

/-- A writer that labels states by the field that `storing` stores to. -/
def storingWriter (key : String) : Writer Provider :=
  .new [.field (storedFields key)] (.plain #[] #[]) (.ofText "out")

/-- The search of `storing` with a writer that watches the field. -/
def storingAfter (key : String) (n : Nat) :
    Exploration Process (Listeners Provider × Transcript) (List Frozen.Mark) :=
  transcribedAfter (storing key).program Listeners.audience "prog" none none ⟨.empty, .empty, #[]⟩
    ⟨[.writer (storingWriter key)], .empty⟩ n

/-- Whether what precedes the last `k` notices of a transcript is an instruction that is announced
and concluded, of which something holds. -/
def concludes (T : Transcript) (k : Nat)
    (C : Delivery → Delivery → Instruction → Reaction → Bool) : Bool :=
  match T.drop k with
  | (d, r) :: (d₀, _) :: _ =>
    match d₀.notice, d.notice with
    | .executing _, .executed i _ => C d₀ d i r
    | _, _ => false
  | _ => false

lemma exists_of_concludes {T : Transcript} {k : Nat}
    {C : Delivery → Delivery → Instruction → Reaction → Bool}
    (h : concludes T k C = true) :
    ∃ d r d₀ r₀ earlier i₀ i next, T = T.take k ++ (d, r) :: (d₀, r₀) :: earlier ∧
      d₀.notice = .executing i₀ ∧ d.notice = .executed i next ∧ C d₀ d i r = true := by
  rw [concludes] at h
  split at h
  · rename_i d r d₀ r₀ earlier hT
    split at h
    · rename_i i₀ i next hd₀ hd
      exact ⟨d, r, d₀, r₀, earlier, i₀, i, next, by rw [← hT, List.take_append_drop], hd₀, hd, h⟩
    · simp at h
  · simp at h

/-- Whether an instruction is seen to store to a field, before it runs and afterwards, the field
says nothing before and `True` afterwards, and no listener fails. -/
def storesTrue (key : String) (d₀ d : Delivery) (i : Instruction) (r : Reaction) : Bool :=
  (storedField key).covers d₀.view.scene i && (storedField key).covers d.view.scene i &&
    (storedFields key).current? d₀.view.scene (storedField key) == none &&
    (storedFields key).current? d.view.scene (storedField key) == some (.bool true) &&
    r.failure == none

/-- The field has the label of a truth value only after the instruction, and is written as what it
is. -/
lemma reports_of_storesTrue {key : String} {d₀ d : Delivery} {i : Instruction} {r : Reaction}
    (h : storesTrue key d₀ d i r = true) :
    (storedField key).covers d₀.view.scene i = true ∧
      (storedField key).covers d.view.scene i = true ∧
      (storedFields key).report? d₀.view.scene (storedField key) = none ∧
      (storedFields key).report? d.view.scene (storedField key) =
        some (FieldProvider.label (storedField key) (.bool true)) ∧ r.failure = none ∧
      (storedFields key).Plain d₀.view.scene (storedField key) ∧
      (storedFields key).Plain d.view.scene (storedField key) := by
  simp only [storesTrue, Bool.and_eq_true, beq_iff_eq] at h
  obtain ⟨⟨⟨⟨hb, hb'⟩, hbefore⟩, hafter⟩, hr⟩ := h
  refine ⟨hb, hb', by rw [FieldProvider.report?, hbefore]; rfl,
    by rw [FieldProvider.report?, hafter]; rfl, hr, fun r hr => ?_, fun r hr => ?_⟩
  · simp [hbefore] at hr
  · obtain rfl := Option.some.inj (hafter.symm.trans hr)
    rfl

/-- The value that `storing` stores gets a state of its own, which has the label of the value. -/
theorem new_value_gets_state_storing :
    ∃ (later earlier : Transcript) (d' d d₀ : Delivery) (r' r r₀ : Reaction) (i : Instruction)
      (next : Option Instruction) (w : Writer Provider),
      (storingAfter "value" 9).search.listeners.2 =
        later ++ (d', r') :: (d, r) :: (d₀, r₀) :: earlier ∧
      d.notice = .executed i next ∧
      (storedFields "value").Changes d₀.view.scene d.view.scene i ∧
      d'.notice = .advanced ∧ d'.view.isNew = true ∧
      Listeners.seat 0 (storingAfter "value" 9).search.listeners.1 = some w ∧
      w.Bears d'.view.stateId ⟨"true__prog_value", "prog.value = True"⟩ ∧
      ∃ s ∈ w.journal.states, s.id = d'.view.stateId := by
  have hstores : concludes (storingAfter "value" 9).search.listeners.2 2
      (storesTrue "value") = true := by decide +kernel
  have hlive : (storingAfter "value" 9).search.terminated = false := by decide +kernel
  have hlast : ∀ e ∈ (storingAfter "value" 9).search.listeners.2.take 2,
      e.1.view.isNew = true ∧ e.2.failure = none := by decide +kernel
  obtain ⟨d, r, d₀, r₀, earlier, i₀, i, next, hT, hd₀, hd, hC⟩ := exists_of_concludes hstores
  obtain ⟨hbefore, hafter, hnone, hreport, hr, hplain, hplain'⟩ := reports_of_storesTrue hC
  have hlabel : FieldProvider.label (storedField "value") (.bool true) =
      .ok ⟨"true__prog_value", "prog.value = True"⟩ := by decide +kernel
  rw [hlabel] at hreport
  have hchanges : (storedFields "value").Changes d₀.view.scene d.view.scene i :=
    ⟨_, List.mem_singleton_self _, hbefore, by rw [hnone, hreport]; simp⟩
  have hwriter : Listeners.seat 0 ⟨[.writer (storingWriter "value")], .empty⟩ =
      some (storingWriter "value") := rfl
  have hprovider : (storingWriter "value").providers[0]? =
      some (.field (storedFields "value")) := rfl
  rw [← List.nil_append ((d₀, r₀) :: earlier)] at hT
  obtain ⟨-, hiff, hstate⟩ := new_value_gets_state hwriter ⟨rfl, rfl⟩ hprovider hT hlive hd₀ hd
    (by simp) (by simp [storedFields, hbefore, hafter])
  have halters := (hiff fun spec hs _ => by
    obtain rfl := List.mem_singleton.mp hs
    exact ⟨.inl fun f => by rw [hnone]; simp, hplain, hplain'⟩).mpr hchanges
  have hlength : ((storingAfter "value" 9).search.listeners.2.take 2).length = 2 := by
    decide +kernel
  obtain ⟨rest, d', r', hlater, hadv, -, hbears⟩ := (hstate halters hr).resolve_left fun h => by
    rw [h.1] at hlength
    simp at hlength
  obtain ⟨hnew, hr'⟩ := hlast (d', r') (by simp [hlater])
  obtain ⟨w, hseat, hw⟩ := hbears hnew
  obtain ⟨hlabels, hexists⟩ := hw _ (List.mem_singleton_self _) _ hreport
  refine ⟨rest, earlier, d', d, d₀, r', r, r₀, i, next, w, ?_, hd, hchanges, hadv, hnew, hseat,
    hlabels, hexists hr'⟩
  rw [hT, hlater, List.append_assoc, List.singleton_append, List.nil_append]

/-! ### Changes that get no state -/

/-- An instruction has changed the label of a field that a provider watches, no listener has failed
or asked for a boundary, and the next notice, which is the last one so far, is not that of a
boundary. -/
def Unseen (q : FieldProvider) (T : Transcript) : Prop :=
  ∃ (d' d d₀ : Delivery) (r' r r₀ : Reaction) (earlier : Transcript) (i₀ i : Instruction)
    (next : Option Instruction), T = (d', r') :: (d, r) :: (d₀, r₀) :: earlier ∧
    d₀.notice = .executing i₀ ∧ d.notice = .executed i next ∧ r.failure = none ∧
    q.Changes d₀.view.scene d.view.scene i ∧ r.breakReason = none ∧ d'.notice ≠ .advanced

/-- Whether the label of a watched field changes, and no listener fails or asks for a boundary. -/
def changesOnly (q : FieldProvider) (d₀ d : Delivery) (i : Instruction) (r : Reaction) : Bool :=
  r.failure.isNone && r.breakReason.isNone && q.fields.any fun spec =>
    spec.covers d₀.view.scene i &&
      decide (q.report? d.view.scene spec ≠ q.report? d₀.view.scene spec)

lemma unseen_of_concludes {q : FieldProvider} {T : Transcript}
    (h : concludes T 1 (changesOnly q) = true)
    (hlast : (T.take 1).map (fun e => EventKind.ofNotice? e.1.notice) = [none]) :
    Unseen q T := by
  obtain ⟨d, r, d₀, r₀, earlier, i₀, i, next, hT, hd₀, hd, hC⟩ := exists_of_concludes h
  obtain ⟨⟨d', r'⟩, rest, hlater, hkind, hrest⟩ := List.map_eq_cons_iff.mp hlast
  obtain rfl := List.map_eq_nil_iff.mp hrest
  rw [hlater] at hT
  simp only [changesOnly, Bool.and_eq_true, Option.isNone_iff_eq_none, List.any_eq_true,
    decide_eq_true_eq] at hC
  obtain ⟨⟨hr, hwish⟩, spec, hspec, hcovers, hreport⟩ := hC
  refine ⟨d', d, d₀, r', r, r₀, earlier, i₀, i, next, hT, hd₀, hd, hr,
    ⟨spec, hspec, hcovers, hreport⟩, hwish, fun hadv => ?_⟩
  simp [hadv, EventKind.ofNotice?] at hkind

/-- The program that puts its number in the place of a named constant:
`from re import IGNORECASE as flags` and `flags = 2`. -/
def renumbering : CodeProgram :=
  .ofSteps "prog" []
    (CodeProgram.importSteps "re" "IGNORECASE" "flags" ++
      [⟨14, "LOAD_CONST", .constant (.int 2), .loadConstant (.int 2)⟩,
       ⟨16, "STORE_NAME", .text "flags", .storeName "flags"⟩] ++ CodeProgram.leaveSteps 18)

/-- A provider that watches the number. -/
def flagsField : FieldProvider := ⟨false, [storedField "flags"], .empty⟩

/-- The search of `renumbering` with a writer that watches the number. -/
def renumberingAfter (n : Nat) :
    Exploration Process (Listeners Provider × Transcript) (List Frozen.Mark) :=
  transcribedAfter renumbering.program Listeners.audience "prog" none none ⟨.empty, .empty, #[]⟩
    ⟨[.writer (.new [.field flagsField] (.plain #[] #[]) (.ofText "out"))], .empty⟩ n

/-- What is stored to the name of the module itself gets no state: the field has another label
afterwards, but the instruction is not seen to store to the field any more, whose owner has lost its
name. And a number that takes the place of a named constant gets none either: the label is another
one, but the values are equal. -/
theorem change_unseen :
    ((storingAfter "__name__" 9).search.terminated = false ∧
      Unseen (storedFields "__name__") (storingAfter "__name__" 9).search.listeners.2) ∧
    (renumberingAfter 21).search.terminated = false ∧
      Unseen flagsField (renumberingAfter 21).search.listeners.2 := by
  refine ⟨⟨by decide +kernel, unseen_of_concludes ?_ ?_⟩, by decide +kernel,
    unseen_of_concludes ?_ ?_⟩
  all_goals decide +kernel

end Exploration

end StateAtlas
