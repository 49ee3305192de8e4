import StateAtlas.Proofs.Label.Gathering
import StateAtlas.Proofs.Program.Coins
import StateAtlas.Proofs.Search.Invisibility
import StateAtlas.Proofs.Search.Track
import StateAtlas.Provider.Basic

set_option autoImplicit false

/-!
# The graph of a search

A label writer with a graph journal draws what a search explores. The cursor of the journal is
where the path has led, and there is an edge for each boundary that has been announced, from the
state below it on the path. The writer knows nothing of the path: it follows the numbers of the
states that it is told.

## Main definitions

* `StateAtlas.Journal.Draws` — a journal is the graph of a log.

## Main results

* `StateAtlas.Writer.draws_heard` — the journal of a writer is the graph of what it has heard.
* `StateAtlas.Exploration.graph_drawn` — the graph of a search, whatever becomes of it, is that of
  its path.
-/

namespace StateAtlas

variable {σ L κ P : Type}

namespace Journal

/-- A journal is the graph of a log: its cursor is where the path has led, and its edges are the
announced transitions, the first one first. -/
def Draws (j : Journal) (log : Log) : Prop :=
  ∃ states, j = .graph (Log.position log) states (Log.edges log).reverse.toArray

variable {j : Journal} {log : Log}

/-- The text of a graph has a line for each transition. -/
lemma Draws.render (h : j.Draws log) (labels : List Label) : ∃ states : List LabeledState,
    j.render labels = "digraph statespace \x7b\n" ++ "node [colorscheme=\"" ++ Color.scheme ++
      "\" style=wedged]\n" ++ String.join (states.map LabeledState.node) ++
      String.join ((Log.edges log).reverse.map edgeText) ++ "\x7d\n" := by
  obtain ⟨states, rfl⟩ := h
  exact ⟨states.toList, rfl⟩

/-- Nodes are no concern of the path. -/
lemma Draws.label (h : j.Draws log) (s : LabeledState) : (j.label s).Draws log := by
  obtain ⟨states, rfl⟩ := h
  rw [Journal.label]
  split
  · exact ⟨states, rfl⟩
  · exact ⟨_, rfl⟩

/-- A boundary adds an edge from the cursor. -/
lemma Draws.advance (h : j.Draws log) {d : Delivery} (hd : d.notice = .advanced) :
    (j.advance d.view.stateId).Draws (d :: log) := by
  obtain ⟨states, rfl⟩ := h
  refine ⟨states, ?_⟩
  rw [Log.position_advanced hd, (Log.cons_advanced hd log).2.1]
  simp [Journal.advance]

/-- A delivery that announces no boundary moves the cursor to where the path has led. -/
lemma Draws.move (h : j.Draws log) {d : Delivery} (hd : d.notice ≠ .advanced)
    (hid : d.view.stateId = Log.position (d :: log)) :
    (j.move d.view.stateId).Draws (d :: log) := by
  obtain ⟨states, rfl⟩ := h
  exact ⟨states, by rw [Log.edges_of_ne hd, ← hid]; rfl⟩

/-- A delivery that announces neither a boundary nor a retreat leaves the graph as it is. -/
lemma Draws.idle (h : j.Draws log) {d : Delivery} (ha : d.notice ≠ .advanced)
    (hb : d.notice ≠ .backtracked) : j.Draws (d :: log) := by
  obtain ⟨states, rfl⟩ := h
  exact ⟨states, by rw [Log.position_of_ne ha hb, Log.edges_of_ne ha]⟩

end Journal

namespace Writer

variable [LabelProvider P] {w : Writer P} {log : Log}

/-- A writer draws a delivery that it attends.

**Proof sketch.** A new state is labelled before the edge to it is drawn; what is only written to a
file changes nothing. -/
lemma Attends.draws (h : w.journal.Draws log) {d : Delivery} {w' : Writer P} (ha : w.Attends d w')
    (hid : d.view.stateId = Log.position (d :: log)) : w'.journal.Draws (d :: log) := by
  cases ha with
  | started => exact (h.label _).idle (by simp) (by simp)
  | @discovered view => exact (h.label _).advance (d := ⟨view, .advanced⟩) rfl
  | @revisited view => exact h.advance (d := ⟨view, .advanced⟩) rfl
  | moved hn => exact h.move (by rcases hn with rfl | rfl <;> simp) hid
  | executing | executed => exact h.idle (by simp) (by simp)
  | written name hn =>
    have hj : (w.writeJournal .empty name).1.journal = w.journal := by
      obtain ⟨states, hj⟩ := h
      simp only [writeJournal, hj]
    rw [hj]
    exact h.idle (by rcases hn with rfl | rfl <;> simp) (by rcases hn with rfl | rfl <;> simp)

/-- The journal of a writer is the graph of what it has heard. -/
theorem draws_heard (hw : w.journal = .ofFormat .dot) (h : w.Takes log)
    (hid : ∀ d earlier, d :: earlier <:+ log → Log.Aligned d earlier) :
    (w.heard log).journal.Draws log := by
  induction log with
  | nil => exact ⟨#[], hw⟩
  | cons d log ih =>
    have hs := List.suffix_cons d log
    exact (attends_attend (h d log (List.suffix_refl _))).draws
      (ih (h.of_suffix hs) fun d' earlier hd' => hid d' earlier (hd'.trans hs))
      (hid d log (List.suffix_refl _)).stateId

end Writer

namespace Exploration

variable [LabelProvider P] {Q : Program σ κ} {A : Audience L} [DecidableEq κ]
  {seat : L → Option (Writer P)} {name : String} {depthLimit maxStates : Option Int}
  {outside : Scene} {l₀ : L} {w₀ : Writer P}

/-- The graph of a search in which no listener has failed, at every moment of it, whether or not it
has been ended. After each delivery the graph is that of what has been delivered, and the delivery
names the state on top of the path that has been announced, whose length is the number of
boundaries reached and not left; a choice is restored right after a retreat, with the path, the
state and the depth left by it. The path that has been announced is that of the search. Each edge
leads to the state of a boundary from the state below it on the path, and the first one that leads
to a state comes from a state with a smaller number. A search that comes to its end by itself ends
before its first state.

**Proof sketch.** The search is on track, and its writer has heard its log. -/
theorem graph_drawn (hA : A.Seats seat) (h₀ : seat l₀ = some w₀) (hw₀ : w₀.journal = .ofFormat .dot)
    {n : Nat} {y : Exploration σ (L × Log) κ}
    (hy : y = after Q A.recorded n (fresh name depthLimit maxStates outside l₀))
    (hs : y.stage.Sound) :
    seat y.search.listeners.1 = some (w₀.heard y.search.listeners.2) ∧
      (∀ d earlier, d :: earlier <:+ y.search.listeners.2 →
        (w₀.heard (d :: earlier)).journal.Draws (d :: earlier) ∧ Log.Aligned d earlier ∧
        (d.notice = .advanced → (Log.edges y.search.listeners.2).reverse[Log.advances earlier]? =
          some (Log.position earlier, d.view.stateId)) ∧
        (d.notice = .restored → ∃ d' before, earlier = d' :: before ∧ d'.notice = .backtracked ∧
          Log.path (d :: earlier) = Log.path earlier ∧ d.view.stateId = d'.view.stateId ∧
          d.view.depth = d'.view.depth)) ∧
      Log.path y.search.listeners.2 = y.search.path.map (fun e => (e.state : Int)) ∧
      y.search.stateId = Search.topState y.search.path ∧
      (∃ states : List LabeledState, (w₀.heard y.search.listeners.2).render =
        "digraph statespace \x7b\n" ++ "node [colorscheme=\"" ++ Color.scheme ++
          "\" style=wedged]\n" ++ String.join (states.map LabeledState.node) ++
          String.join ((Log.edges y.search.listeners.2).reverse.map edgeText) ++ "\x7d\n") ∧
      (Log.edges y.search.listeners.2).length = Log.advances y.search.listeners.2 ∧
      (∀ k < y.search.seen.size, ∃ p, Log.entrance y.search.listeners.2 k = some p ∧
        -1 ≤ p ∧ p < k) ∧
      (y.search.terminated = false → ∀ e, y.stage = .ended e →
        y.search.path = [] ∧ (w₀.heard y.search.listeners.2).journal.Draws y.search.listeners.2 ∧
          Log.position y.search.listeners.2 = -1) := by
  have htrack := onTrack_after Q A name depthLimit maxStates outside l₀ n
  have hrestored := restored_said (P := Q) (A := A)
    (rfl : fresh name depthLimit maxStates outside l₀ = fresh name depthLimit maxStates outside l₀) n
  obtain ⟨taken, w, hp⟩ := present_after Q name depthLimit maxStates outside hA h₀ n
  rw [← hy] at htrack hrestored hp
  obtain ⟨hb, ho⟩ := phase_of_sound (s := y.search) hs
  obtain ⟨hlog, rfl⟩ := hp.exact hb ho
  have htakes := hp.takes
  rw [← hlog] at htakes
  have hdraws : ∀ {log}, log <:+ y.search.listeners.2 → (w₀.heard log).journal.Draws log :=
    fun hsuf => Writer.draws_heard hw₀ (htakes.of_suffix hsuf)
      fun d earlier hd => htrack.said d earlier (hd.trans hsuf)
  refine ⟨hlog ▸ hp.seated, fun d earlier hd => ⟨hdraws hd, htrack.said d earlier hd,
    Log.getElem?_edges hd, fun hr => ?_⟩, htrack.path, htrack.stateId,
    (hdraws (List.suffix_refl _)).render _, Log.length_edges _, htrack.entrance, ?_⟩
  · obtain ⟨d', before, rfl, hd'⟩ := hrestored d earlier hd hr
    have halign := htrack.said d _ hd
    have halign' := htrack.said d' before ((List.suffix_cons d _).trans hd)
    have hpath : Log.path (d :: d' :: before) = Log.path (d' :: before) :=
      (Log.cons_of_ne (by simp [hr]) (by simp [hr]) _).1
    refine ⟨d', before, rfl, hd', hpath, ?_, ?_⟩
    · rw [halign.stateId, halign'.stateId, Log.position_of_ne (by simp [hr]) (by simp [hr])]
    · rw [halign.depth, halign'.depth, hpath]
  · intro ht e he
    have hend : y.search.path = [] := by
      subst hy
      exact path_of_completed orderly_fresh (by simp [fresh, ofSearch, Search.new]) ⟨ht, hs⟩ he
    refine ⟨hend, hdraws (List.suffix_refl _), ?_⟩
    rw [htrack.position, hend]
    rfl

/-! ## The graph of two coins -/

/-- A writer that draws a graph and has heard nothing. -/
def coinsWriter : Writer Provider := .new [.initial true, .final] (.ofFormat .dot) ⟨"", []⟩

/-- The search through the throws of two coins with a writer that draws it. -/
def coinsDrawing : Exploration (Nat × Nat) (Listeners Provider × Log) (Nat × Nat) :=
  after coins Listeners.audience.recorded 16
    (fresh "coins" none none .empty ⟨[.writer coinsWriter], .empty⟩)

/-- The writer of the coins has drawn what has been delivered. -/
theorem graph_drawn_coins : coinsDrawing.stage.Sound ∧
    Listeners.seat 0 coinsDrawing.search.listeners.1 =
      some (coinsWriter.heard coinsDrawing.search.listeners.2) ∧
    Log.path coinsDrawing.search.listeners.2 =
      coinsDrawing.search.path.map (fun e => (e.state : Int)) := by
  have hs : coinsDrawing.stage.Sound := by decide +kernel
  have h := graph_drawn (Listeners.seats_audience 0) rfl rfl rfl hs
  exact ⟨hs, h.1, h.2.2.1⟩

end Exploration

end StateAtlas
