import StateAtlas.Proofs.Label.Tally
import StateAtlas.Proofs.Search.Course
import StateAtlas.Search.Listener

set_option autoImplicit false

/-!
# A writer among the listeners

What a label writer has become is a function of what it has heard: the files and the other
listeners have no part in it. A failure ends the search, so that up to the last delivery everything
that was delivered has been heard by the writer, and none of its providers has failed.

## Main definitions

* `StateAtlas.Writer.attend`, `StateAtlas.Writer.heard` — a writer after one delivery, and after a
  log.
* `StateAtlas.Writer.Takes` — a log at no delivery of which the writer fails.
* `StateAtlas.Audience.Seats` — a writer has a seat in an audience.
* `StateAtlas.Writer.Present` — what the writer in a seat has made of the log of a search.

## Main results

* `StateAtlas.Listeners.seats_audience` — every writer of a run has a seat.
* `StateAtlas.Exploration.present_after` — the writer in a seat is the one that has heard the log.
-/

namespace StateAtlas

variable {σ L κ P : Type} [LabelProvider P]

namespace Writer

/-! ## Hearing -/

/-- A writer after a delivery. -/
def attend (w : Writer P) (d : Delivery) : Writer P := (w.hear .empty d.view d.notice).1

/-- A writer fails at a delivery. -/
def FailsAt (w : Writer P) (d : Delivery) : Prop :=
  (w.hear .empty d.view d.notice).2.2.failure ≠ none

/-- A writer after the deliveries of a log. -/
def heard (w : Writer P) : Log → Writer P
  | [] => w
  | d :: earlier => (heard w earlier).attend d

/-- The writer fails at no delivery of a log. -/
def Takes (w : Writer P) (log : Log) : Prop :=
  ∀ d earlier, d :: earlier <:+ log → ¬(w.heard earlier).FailsAt d

/-- What comes of saving a file: it cannot have its path, or it is not saved, or it is written once
the directories above it are there. -/
lemma save_cases (e : Surroundings) (path : Path) (content : String) :
    (path.hasNull = true ∧ save e path content = (e, .failing .nullInPath)) ∨
      path.hasNull = false ∧
        ((∃ files cause, save e path content = unsaved { e with files } path cause) ∨
          ∃ made files, e.files.asked.makeDirectories path.parent = .ok made ∧
            made.write path content = .ok files ∧
            save e path content = ({ e with files }, .none)) := by
  unfold save
  cases hnull : path.hasNull with
  | true => exact .inl ⟨rfl, rfl⟩
  | false =>
    refine .inr ⟨rfl, ?_⟩
    rw [if_neg Bool.false_ne_true]
    split
    · exact .inl ⟨_, _, rfl⟩
    · split
      · exact .inl ⟨_, _, rfl⟩
      · rename_i made hmade
        split
        · exact .inl ⟨_, _, rfl⟩
        · rename_i files hwritten
          exact .inr ⟨made, files, hmade, hwritten, rfl⟩

/-- Whether saving a file fails depends on its path alone. -/
lemma failure_save (e e' : Surroundings) (path : Path) (content : String) :
    (save e path content).2.failure = (save e' path content).2.failure := by
  have key : ∀ e : Surroundings, (save e path content).2.failure =
      if path.hasNull then some .nullInPath else none := by
    intro e
    rcases save_cases e path content with
      ⟨hnull, heq⟩ | ⟨hnull, ⟨files, cause, heq⟩ | ⟨made, files, -, -, heq⟩⟩
    · rw [heq, hnull]
      rfl
    · rw [heq, hnull]
      rfl
    · rw [heq, hnull]
      rfl
  rw [key, key]

omit [LabelProvider P] in
lemma failure_reactionOf (f : Option Fault) : (reactionOf f).failure = f := by cases f <;> rfl

/-- A writer that has labelled a new state announces it in its journal. -/
lemma hear_advanced {view : View} (hnew : view.isNew = true) (w : Writer P) (e : Surroundings) :
    w.hear e view .advanced =
      let v := w.labelState view view.stateId
      (if v.2 = none then { v.1 with journal := v.1.journal.advance view.stateId } else v.1, e,
        reactionOf v.2) := by
  rw [hear, if_pos hnew]
  cases w.labelState view view.stateId with
  | mk v f => cases f <;> rfl

/-- What becomes of a writer, and whether it fails, does not depend on its surroundings. -/
lemma hear_eq (w : Writer P) (e : Surroundings) (view : View) (n : Notice) :
    (w.hear e view n).1 = w.attend ⟨view, n⟩ ∧
      (w.hear e view n).2.2.failure = (w.hear .empty view n).2.2.failure := by
  have journal : ∀ name, (w.writeJournal e name).1 = (w.writeJournal .empty name).1 ∧
      (w.writeJournal e name).2.2.failure = (w.writeJournal .empty name).2.2.failure := by
    intro name
    unfold writeJournal
    split
    · exact ⟨rfl, rfl⟩
    · exact ⟨rfl, failure_save _ _ _ _⟩
  have legend : ∀ (w : Writer P) (e e' : Surroundings) name,
      (w.writeLegend e name).2.failure = (w.writeLegend e' name).2.failure := by
    intro w e e' name
    unfold writeLegend
    split
    · exact failure_save _ _ _ _
    · rfl
  rw [attend]
  cases n with
  | constraintHit => exact journal _
  | finished =>
    obtain ⟨hw, hf⟩ := journal view.name
    simp only [hear, hf]
    split
    · exact ⟨hw, hf⟩
    · refine ⟨hw, ?_⟩
      simp only [Reaction.andThen, hf, hw, legend _ _ (w.writeJournal .empty view.name).2.1]
  | advanced =>
    simp only [hear]
    split
    · split <;> exact ⟨rfl, rfl⟩
    · exact ⟨rfl, rfl⟩
  | executed i next =>
    simp only [hear]
    split <;> exact ⟨rfl, rfl⟩
  | _ => exact ⟨rfl, rfl⟩

lemma takes_nil (w : Writer P) : w.Takes [] :=
  fun d earlier h => absurd (List.suffix_nil.mp h) (by simp)

/-- One more delivery at which the writer does not fail. -/
lemma Takes.cons {w : Writer P} {d : Delivery} {log : Log} (h : w.Takes log)
    (hd : ¬(w.heard log).FailsAt d) : w.Takes (d :: log) := by
  intro d' earlier hs
  rcases List.suffix_cons_iff.mp hs with heq | hs
  · obtain ⟨rfl, rfl⟩ := List.cons.inj heq
    exact hd
  · exact h d' earlier hs

/-- A part of what was taken was taken. -/
lemma Takes.of_suffix {w : Writer P} {log log' : Log} (h : w.Takes log) (hs : log' <:+ log) :
    w.Takes log' :=
  fun d earlier hd => h d earlier (hd.trans hs)

end Writer

/-! ## Seats -/

/-- A writer has a seat in an audience. It hears every notice, unless a listener before it fails;
when it fails, the audience does. -/
structure Audience.Seats (A : Audience L) (seat : L → Option (Writer P)) : Prop where
  hear : ∀ {l w} view n, seat l = some w →
    (seat (A.hear l view n).1 = some (w.attend ⟨view, n⟩) ∧
        (w.FailsAt ⟨view, n⟩ → (A.hear l view n).2.failure ≠ none)) ∨
      (seat (A.hear l view n).1 = some w ∧ (A.hear l view n).2.failure ≠ none)
  report : ∀ l r, seat (A.report l r) = seat l

namespace Listeners

/-- The writer at a place among the listeners of a run. -/
def seat (j : Nat) (ls : Listeners P) : Option (Writer P) :=
  match ls.members[j]? with
  | some (.writer w) => some w
  | _ => none

/-- What becomes of a writer that hears a notice. -/
lemma hearOne_writer (w : Writer P) (e : Surroundings) (view : View) (n : Notice) :
    hearOne (.writer w) e view n =
      (.writer (w.attend ⟨view, n⟩), (w.hear e view n).2.1, (w.hear e view n).2.2) := by
  rw [← (w.hear_eq e view n).1]
  rfl

/-- The listeners hear a notice in turn, up to the first failure. -/
lemma hearAll_getElem? (view : View) (n : Notice) {w : Writer P} : ∀ {ls : List (Listener P)}
    {j : Nat} (e : Surroundings), ls[j]? = some (.writer w) →
    ((hearAll view n ls e).1[j]? = some (.writer (w.attend ⟨view, n⟩)) ∧
        (w.FailsAt ⟨view, n⟩ → (hearAll view n ls e).2.2.failure ≠ none)) ∨
      ((hearAll view n ls e).1[j]? = some (.writer w) ∧
        (hearAll view n ls e).2.2.failure ≠ none)
  | [], j, e, h => by simp at h
  | l :: ls, 0, e, h => by
    obtain rfl : l = .writer w := by simpa using h
    obtain ⟨-, hf⟩ := w.hear_eq e view n
    refine .inl ?_
    rw [hearAll, hearOne_writer]
    simp only
    split
    · rename_i hfail
      refine ⟨by simp, fun _ hnone => ?_⟩
      have hnone : (w.hear e view n).2.2.failure = none := hnone
      simp [hnone] at hfail
    · rename_i hfail
      refine ⟨by simp, fun hfails => absurd ?_ hfails⟩
      rw [← hf]
      simpa using hfail
  | l :: ls, j + 1, e, h => by
    simp only [List.getElem?_cons_succ] at h
    rw [hearAll]
    cases hone : hearOne l e view n with
    | mk l' rest =>
      obtain ⟨e', r⟩ := rest
      simp only
      split
      · rename_i hfail
        refine .inr ⟨by simpa using h, fun hnone => ?_⟩
        have hnone : r.failure = none := hnone
        simp [hnone] at hfail
      · rename_i hfail
        have hr : r.failure = none := by simpa using hfail
        have hrest := hearAll_getElem? view n e' h
        simpa [Reaction.andThen, hr] using hrest

/-- Every writer of a run has a seat. -/
theorem seats_audience (j : Nat) : (audience : Audience (Listeners P)).Seats (seat j) := by
  refine ⟨fun {l w} view n h => ?_, fun _ _ => rfl⟩
  have hj : l.members[j]? = some (.writer w) := by
    rw [seat] at h
    split at h
    · rename_i heq
      rw [heq, Option.some.inj h]
    · simp at h
  rcases hearAll_getElem? view n l.surroundings hj with ⟨hg, hf⟩ | ⟨hg, hf⟩
  · exact .inl ⟨by simp [seat, audience, hg], hf⟩
  · exact .inr ⟨by simp [seat, audience, hg], hf⟩

end Listeners

/-! ## What a writer does not take -/

namespace Writer

/-- A writer differs from another only in what a delivery leaves behind at which it fails: it may
have met more labels, but has recorded the same states. -/
structure Trails (w w' : Writer P) : Prop where
  states : w'.journal.states = w.journal.states
  grows : w.tally.registry.labels <+: w'.tally.registry.labels

omit [LabelProvider P] in
lemma Trails.refl (w : Writer P) : w.Trails w := ⟨rfl, List.prefix_refl _⟩

/-- Asking for the labels of a new state trails if a provider fails. -/
lemma trails_labelState {w : Writer P} {view : View} {id : Int}
    (h : (w.labelState view id).2 ≠ none) : w.Trails (w.labelState view id).1 := by
  have hgrows := Tally.askStates_grows view w.providers w.tally
  revert h
  rw [labelState]
  split
  · rename_i hask
    rw [hask] at hgrows
    exact fun _ => ⟨rfl, hgrows⟩
  · exact fun h => absurd rfl h

omit [LabelProvider P] in
/-- Writing the journal changes neither the providers nor the labels nor the recorded states. -/
lemma writeJournal_fst (w : Writer P) (e : Surroundings) (name : String) :
    (w.writeJournal e name).1.providers = w.providers ∧ (w.writeJournal e name).1.tally = w.tally ∧
      (w.writeJournal e name).1.journal.states = w.journal.states := by
  rw [writeJournal]
  split
  · rename_i states written hj
    exact ⟨rfl, rfl, by rw [hj]; rfl⟩
  · exact ⟨rfl, rfl, rfl⟩

/-- At the end the journal is written. -/
lemma attend_finished (w : Writer P) (view : View) :
    w.attend ⟨view, .finished⟩ = (w.writeJournal .empty view.name).1 := by
  rw [attend]
  cases hj : w.writeJournal .empty view.name with
  | mk w' rest =>
    obtain ⟨e, r⟩ := rest
    simp only [hear, hj]
    split <;> rfl

/-- A writer that fails records nothing. -/
lemma trails_of_failsAt {w : Writer P} {d : Delivery} (h : w.FailsAt d) : w.Trails (w.attend d) := by
  have written : ∀ name, w.Trails (w.writeJournal .empty name).1 := fun name =>
    ⟨(w.writeJournal_fst _ name).2.2, (w.writeJournal_fst .empty name).2.1 ▸ List.prefix_refl _⟩
  obtain ⟨view, n⟩ := d
  rw [FailsAt] at h
  rw [attend]
  cases n with
  | started =>
    simp only [hear, failure_reactionOf] at h ⊢
    obtain ⟨hs, hg⟩ := trails_labelState h
    exact ⟨hs, hg⟩
  | advanced =>
    by_cases hnew : view.isNew = true
    · simp only [hear_advanced hnew, failure_reactionOf] at h ⊢
      rw [if_neg h]
      exact trails_labelState h
    · simp only [hear, if_neg hnew] at h
      exact absurd rfl h
  | executing i => exact ⟨rfl, List.prefix_refl _⟩
  | executed i next =>
    simp only [hear] at h ⊢
    have hgrows := Tally.askBreaks_grows view.scene i next w.providers w.tally.clear
    split
    · rename_i hask
      rw [hask] at hgrows
      exact ⟨rfl, hgrows⟩
    · rename_i hask
      rw [hask] at h
      exact absurd rfl h
  | constraintHit => exact written _
  | finished =>
    rw [← attend, w.attend_finished view]
    exact written _
  | _ => exact absurd rfl h

/-! ## The writer of a search -/

/-- The writer in a seat has heard the log of a search, up to the last delivery if the search has
failed. -/
structure Present (seat : L → Option (Writer P)) (w₀ : Writer P) (base : Log)
    (s : Search (L × Log) κ) (φ : Phase) (taken : Log) (w : Writer P) : Prop where
  based : base <:+ taken
  takes : w₀.Takes taken
  last : s.listeners.2 = taken ∨ ∃ d, s.listeners.2 = d :: taken
  seated : seat s.listeners.1 = some w
  trails : (w₀.heard taken).Trails w
  heard : w = w₀.heard taken ∨ w = w₀.heard s.listeners.2
  exact : φ ≠ .broken → φ ≠ .over false → s.listeners.2 = taken ∧ w = w₀.heard taken

/-- What a writer has taken is part of the log. -/
lemma Present.suffix {seat : L → Option (Writer P)} {w₀ w : Writer P} {base taken : Log}
    {s : Search (L × Log) κ} {φ : Phase} (h : Present seat w₀ base s φ taken w) :
    taken <:+ s.listeners.2 := by
  rcases h.last with hl | ⟨d, hl⟩
  · exact hl ▸ List.suffix_refl _
  · exact hl ▸ List.suffix_cons d taken

variable {A : Audience L} {seat : L → Option (Writer P)} {w₀ : Writer P} {base : Log}

/-- A notice is heard, or the search has failed. -/
lemma present_notify (hA : A.Seats seat) {s t : Search (L × Log) κ} {scene : Scene}
    {top : Option FrameId} {n : Notice} {f : Option Fault} {taken : Log} {w : Writer P} {φ ψ : Phase}
    (h : Present seat w₀ base s φ taken w) (hb : φ ≠ .broken) (ho : φ ≠ .over false)
    (hn : s.notify A.recorded scene top n = (t, f))
    (hψ : f ≠ none → ψ = .broken ∨ ψ = .over false) :
    ∃ taken w, Present seat w₀ base t ψ taken w := by
  obtain ⟨hlog, hw⟩ := h.exact hb ho
  have hlog' : t.listeners.2 = ⟨s.view scene top, n⟩ :: taken := by
    obtain rfl := Search.eq_told _ hn
    rw [Search.told_log, hlog]
  have hl : t.listeners.1 = (A.hear s.listeners.1 (s.view scene top) n).1 := by
    obtain rfl := Search.eq_told _ hn
    rfl
  have hf : f = (A.hear s.listeners.1 (s.view scene top) n).2.failure := (Prod.mk.inj hn).2.symm
  have failed : f ≠ none → ¬(ψ ≠ .broken ∧ ψ ≠ .over false) := fun hne hψ' =>
    (hψ hne).elim hψ'.1 hψ'.2
  rcases hA.hear (s.view scene top) n h.seated with ⟨hseat, hfail⟩ | ⟨hseat, hfail⟩
  · rw [← hl] at hseat
    by_cases hwf : w.FailsAt ⟨s.view scene top, n⟩
    · -- the writer itself fails
      refine ⟨taken, _, h.based, h.takes, .inr ⟨_, hlog'⟩, hseat, ?_, .inr ?_, fun hb' ho' => ?_⟩
      · rw [hw] at hwf ⊢
        exact trails_of_failsAt hwf
      · rw [hlog', hw]
        rfl
      · exact absurd ⟨hb', ho'⟩ (failed (hf ▸ hfail hwf))
    · have hheard : w.attend ⟨s.view scene top, n⟩ =
          w₀.heard (⟨s.view scene top, n⟩ :: taken) := by rw [hw]; rfl
      refine ⟨_ :: taken, _, h.based.trans (List.suffix_cons _ _), h.takes.cons (hw ▸ hwf),
        .inl hlog', hseat, ?_, .inl hheard, fun _ _ => ⟨hlog', hheard⟩⟩
      rw [hheard]
      exact .refl _
  · -- a listener before the writer fails
    rw [← hl] at hseat
    exact ⟨taken, w, h.based, h.takes, .inr ⟨_, hlog'⟩, hseat, h.trails, .inl hw,
      fun hb' ho' => absurd ⟨hb', ho'⟩ (failed (hf ▸ hfail))⟩

/-- What a search keeps for itself is nothing to the writer. -/
lemma Present.keep {s t : Search (L × Log) κ} {φ ψ : Phase} {taken : Log} {w : Writer P}
    (h : Present seat w₀ base s φ taken w) (hs : seat t.listeners.1 = seat s.listeners.1)
    (hl : t.listeners.2 = s.listeners.2)
    (hψ : ψ ≠ .broken → ψ ≠ .over false → φ ≠ .broken ∧ φ ≠ .over false) :
    Present seat w₀ base t ψ taken w :=
  ⟨h.based, h.takes, hl ▸ h.last, hs ▸ h.seated, h.trails, hl ▸ h.heard, fun hb ho => hl ▸
    h.exact (hψ hb ho).1 (hψ hb ho).2⟩

/-- A boundary that is reached is heard, with a limit that is hit, or the search has failed. -/
lemma present_advance [DecidableEq κ] (hA : A.Seats seat) {s t : Search (L × Log) κ} {scene : Scene}
    {top : Option FrameId} {b : Boundary} {key : κ} {r : Progress} {taken : Log} {w : Writer P}
    {previous : Option Instruction} (h : Present seat w₀ base s (.running previous) taken w)
    (hadv : s.advance A.recorded scene top b key = (t, r)) :
    ∃ taken w, Present seat w₀ base t (.after previous r) taken w := by
  unfold Search.advance at hadv
  have henter : Present seat w₀ base (s.enter b key) (.running previous) taken w := by
    have hlisteners : (s.enter b key).listeners = s.listeners := by rw [Search.enter_eq]
    exact h.keep (by rw [hlisteners]) (by rw [hlisteners]) fun hb ho => ⟨hb, ho⟩
  -- the limit is announced after the boundary
  have limit : ∀ {u v : Search (L × Log) κ} {f : Option Fault} {c : String} {ψ : Phase} {taken w},
      Present seat w₀ base u (.running previous) taken w →
        u.hitConstraint A.recorded scene top c = (v, f) → (f ≠ none → ψ = .broken ∨ ψ = .over false) →
          ∃ taken w, Present seat w₀ base v ψ taken w := by
    intro u v f c ψ taken w hu hv hψ
    exact present_notify hA (hu.keep (t := { u with constraint := some c }) rfl rfl
      fun hb ho => ⟨hb, ho⟩) (by simp) (by simp) hv hψ
  cases hn : (s.enter b key).notify A.recorded scene top .advanced with
  | mk u f =>
    rw [hn] at hadv
    cases f with
    | some f =>
      obtain ⟨rfl, rfl⟩ := Prod.mk.inj hadv
      exact present_notify hA henter (by simp) (by simp) hn (by simp)
    | none =>
      obtain ⟨taken, w, hu⟩ : ∃ taken w, Present seat w₀ base u (.running previous) taken w :=
        present_notify hA henter (by simp) (by simp) hn (by simp)
      have rest : ∀ {ψ : Phase}, Present seat w₀ base u ψ taken w := fun {ψ} =>
        hu.keep rfl rfl fun _ _ => by simp
      simp only at hadv
      split at hadv
      · obtain ⟨rfl, rfl⟩ := Prod.mk.inj hadv
        exact ⟨taken, w, rest⟩
      · split at hadv
        · split at hadv
          · rename_i hv
            obtain ⟨rfl, rfl⟩ := Prod.mk.inj hadv
            exact limit hu hv (by simp)
          · rename_i hv
            obtain ⟨rfl, rfl⟩ := Prod.mk.inj hadv
            obtain ⟨taken, w, hv⟩ : ∃ taken w, Present seat w₀ base _ (.running previous) taken w :=
              limit hu hv (by simp)
            exact ⟨taken, w, hv.keep rfl rfl fun _ _ => by simp⟩
        · split at hadv
          · split at hadv
            · rename_i hv
              obtain ⟨rfl, rfl⟩ := Prod.mk.inj hadv
              exact limit hu hv (by simp)
            · rename_i hv
              obtain ⟨rfl, rfl⟩ := Prod.mk.inj hadv
              obtain ⟨taken, w, hv⟩ : ∃ taken w, Present seat w₀ base _ (.running previous) taken w :=
                limit hu hv (by simp)
              exact ⟨taken, w, hv.keep rfl rfl fun _ _ => by simp⟩
          · obtain ⟨rfl, rfl⟩ := Prod.mk.inj hadv
            exact ⟨taken, w, rest⟩

/-- Every act leaves the writer in its seat, with what it has heard. -/
lemma present_act [DecidableEq κ] (hA : A.Seats seat) {x y : Search (L × Log) κ × Phase}
    (ha : Search.Act A.recorded x y) (h : ∃ taken w, Present seat w₀ base x.1 x.2 taken w) :
    ∃ taken w, Present seat w₀ base y.1 y.2 taken w := by
  obtain ⟨taken, w, h⟩ := h
  have told : ∀ (f : Option Fault) (ψ : Phase), f ≠ none → Phase.told f ψ = .broken ∨
      Phase.told f ψ = .over false := by
    intro f ψ hf
    cases f with
    | none => exact absurd rfl hf
    | some f => exact .inl rfl
  cases ha with
  | report r => exact ⟨taken, w, h.keep (hA.report _ r) rfl fun hb ho => ⟨hb, ho⟩⟩
  | note => exact ⟨taken, w, h.keep rfl rfl fun hb ho => ⟨hb, ho⟩⟩
  | start => exact ⟨taken, w, h.keep rfl rfl fun _ _ => by simp⟩
  | effect => exact ⟨taken, w, h.keep rfl rfl fun _ _ => by simp⟩
  | quit hb ho => exact ⟨taken, w, h.keep rfl rfl fun _ _ => ⟨hb, ho false⟩⟩
  | turn => exact ⟨taken, w, h.keep rfl rfl fun _ _ => by simp⟩
  | unmade => exact ⟨taken, w, h.keep rfl rfl fun hb _ => absurd rfl hb⟩
  | leave => exact ⟨taken, w, h.keep rfl rfl fun _ ho => absurd rfl ho⟩
  | reach hadv => exact present_advance hA h hadv
  | begin hn => exact present_notify hA h (by simp) (by simp) hn (told _ _)
  | conclude hn => exact present_notify hA h (by simp) (by simp) hn (told _ _)
  | execute hn => exact present_notify hA h (by simp) (by simp) hn (told _ _)
  | restore _ hn => exact present_notify hA h (by simp) (by simp) hn (told _ _)
  | @retreat s t e rest f _ _ hn =>
    have hback : Present seat w₀ base (s.back rest) .resting taken w :=
      h.keep rfl rfl fun hb ho => ⟨hb, ho⟩
    exact present_notify hA hback (by simp) (by simp) hn (told _ _)
  | finish hn =>
    refine present_notify hA h (by simp) (by simp) hn fun hf => .inr (congrArg Phase.over ?_)
    simpa [Option.isSome_iff_ne_none] using hf

end Writer

namespace Exploration

variable {Q : Program σ κ} {A : Audience L} [DecidableEq κ] {seat : L → Option (Writer P)}
  {name : String} {depthLimit maxStates : Option Int} {outside : Scene} {l₀ : L} {w₀ : Writer P}

variable (Q name depthLimit maxStates outside) in
/-- The writer in a seat is the one that has heard the log. -/
theorem present_after (hA : A.Seats seat) (h₀ : seat l₀ = some w₀) (n : Nat) :
    ∃ taken w, Writer.Present seat w₀ []
      (after Q A.recorded n (fresh name depthLimit maxStates outside l₀)).search
      (phase (after Q A.recorded n (fresh name depthLimit maxStates outside l₀)).search
        (after Q A.recorded n (fresh name depthLimit maxStates outside l₀)).stage) taken w :=
  let Holds (y : Search (L × Log) κ × Phase) : Prop :=
    ∃ taken w, Writer.Present seat w₀ [] y.1 y.2 taken w
  have hstart : Holds
      ((fresh name depthLimit maxStates outside l₀ : Exploration σ _ κ).search, .waiting) :=
    ⟨[], w₀, List.suffix_refl _, w₀.takes_nil, .inl rfl, h₀, .refl _, .inl rfl, fun _ _ => ⟨rfl, rfl⟩⟩
  invariant_after (A := A.recorded) (P := Q) orderly_fresh hstart (Writer.present_act hA) n

omit [DecidableEq κ] in
/-- In a sound stage no failure has broken the search. -/
lemma phase_of_sound {s : Search L κ} {stage : Stage σ} (h : stage.Sound) :
    phase s stage ≠ .broken ∧ phase s stage ≠ .over false := by
  cases stage with
  | waiting => simp [phase]
  | launching =>
    simp only [phase, Search.opening]
    split <;> simp
  | executing p w =>
    rw [phase_executing s p h]
    split_ifs <;> simp
  | ended e =>
    have he : e = .completed := h
    simp [phase, he]

/-- What has been delivered up to some moment, and was not the delivery at which the search failed,
has been taken by the writer ever after. -/
theorem taken_after (hA : A.Seats seat) (h₀ : seat l₀ = some w₀) {n m : Nat} (hnm : n ≤ m)
    {log : Log}
    (hlog : log <:+ (after Q A.recorded n (fresh name depthLimit maxStates outside l₀)).search.listeners.2)
    (hlast : (after Q A.recorded n (fresh name depthLimit maxStates outside l₀)).search.listeners.2 =
      log → (after Q A.recorded n (fresh name depthLimit maxStates outside l₀)).stage.Sound) :
    ∃ taken w, Writer.Present seat w₀ log
      (after Q A.recorded m (fresh name depthLimit maxStates outside l₀)).search
      (phase (after Q A.recorded m (fresh name depthLimit maxStates outside l₀)).search
        (after Q A.recorded m (fresh name depthLimit maxStates outside l₀)).stage) taken w := by
  obtain ⟨taken, w, h⟩ := present_after Q name depthLimit maxStates outside hA h₀ n
  -- at the moment itself
  have hbase : log <:+ taken := by
    by_cases heq : (after Q A.recorded n
        (fresh name depthLimit maxStates outside l₀)).search.listeners.2 = log
    · obtain ⟨hb, ho⟩ := phase_of_sound (hlast heq)
      exact (heq.symm.trans (h.exact hb ho).1) ▸ List.suffix_refl _
    · rcases h.last with hl | ⟨d, hl⟩
      · exact hl ▸ hlog
      · rw [hl] at hlog heq
        exact (List.suffix_cons_iff.mp hlog).resolve_left fun h => heq h.symm
  -- and from there on
  obtain ⟨k, rfl⟩ := Nat.exists_eq_add_of_le hnm
  rw [Nat.add_comm, after_add]
  exact invariant_after (A := A.recorded) (P := Q)
    (I := fun y => ∃ taken w, Writer.Present seat w₀ log y.1 y.2 taken w)
    (orderly_after orderly_fresh n)
    ⟨taken, w, hbase, h.takes, h.last, h.seated, h.trails, h.heard, h.exact⟩ (Writer.present_act hA) k

end Exploration

end StateAtlas
