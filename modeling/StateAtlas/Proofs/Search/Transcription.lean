import StateAtlas.Proofs.Search.Concurrence
import StateAtlas.Proofs.Search.Course
import StateAtlas.Proofs.Search.Invisibility
import StateAtlas.Proofs.Search.Sequel

set_option autoImplicit false

/-!
# Logs and transcripts

A search does not depend on what is written down of it: with a transcript it makes the same moves,
and its log is that of its transcript. So what holds of the logs of all searches holds of their
transcripts, which tell how the listeners have reacted as well. A boundary that a listener has asked
for comes right after the instruction, and shows the program as the instruction has left it.

## Main definitions

* `StateAtlas.Transcript.Accompanies` — listeners with a transcript beside them.
* `StateAtlas.Transcript.Abridged` — of a transcript only the log is kept.

## Main results

* `StateAtlas.Exploration.abreast_transcribed`, `StateAtlas.Exploration.abreast_recorded` — a search
  makes the same moves, whatever is written down of it.
* `StateAtlas.Exploration.after_recorded` — the log of a search is that of its transcript.
* `StateAtlas.Exploration.unmade_of_fault` — if no listener fails, only the lack of a fingerprint
  surfaces.
* `StateAtlas.Exploration.scene_of_boundary` — a boundary right after an instruction shows what the
  conclusion of the instruction showed.
* `StateAtlas.Exploration.boundary_of_wish` — a wish for a boundary is granted right after the
  instruction.
-/

namespace StateAtlas

variable {σ κ L : Type}

/-- Of listeners with a transcript the same listeners are left, with the log alone. -/
def Transcript.Abridged (l : L × Transcript) (l' : L × Log) : Prop := l' = (l.1, log l.2)

/-- What is written down of the deliveries does not matter to the listeners. -/
lemma Audience.concurs_recorded (A : Audience L) :
    A.transcribed.Concurs A.recorded Transcript.Abridged Transcript.Abridged Eq where
  same _ := rfl
  kept h := h
  report := by
    rintro l _ r rfl
    rfl
  report_kept := by
    rintro l _ r rfl
    rfl
  hear := by
    rintro l _ view n rfl
    exact ⟨.refl _, rfl, fun _ => rfl⟩
  failures := by
    rintro l _ view n rfl f f' hf hf'
    exact Option.some.inj (hf.symm.trans hf')

namespace Exploration

open Search Transcript

variable {P : Program σ κ} {A : Audience L}

/-- What is said of the last instruction shows where it is said. -/
lemma scene_of_announced {s : Search L κ} {scene : Scene} {top : Option FrameId}
    {previous next : Option Instruction} {d : Delivery}
    (hd : d ∈ announced s scene top previous next) : d.view.scene = scene := by
  cases previous with
  | none => simp [announced] at hd
  | some e =>
    obtain rfl : d = ⟨s.view scene top, .executed e next⟩ := by simpa [announced] using hd
    rfl

variable [DecidableEq κ]

/-- What a move says of a boundary shows the same as what it says of the instruction right before
it. -/
lemma Speaks.scene_eq {s : Search L κ} {stage : Stage σ} {d d' : Delivery} {later earlier : Log}
    (h : Speaks P s stage (later ++ d' :: d :: earlier)) (hd' : d'.notice = .advanced) :
    d'.view.scene = d.view.scene := by
  generalize hnew : later ++ d' :: d :: earlier = new at h
  cases h with
  | quiet h => exact absurd hd' (h d' (by simp [← hnew])).1
  | restored => simp [List.append_eq_singleton_iff] at hnew
  | @boundary p q w top b before after k hw hr harr hk hafter =>
    have hs : d' :: d :: earlier <:+ after ++ s.arrival (P.scene q) top b k :: before :=
      ⟨later, hnew⟩
    have hs := Log.suffix_of_append (N := (· = .advanced)) hs hd' fun d hd => (hafter d hd).1
    rcases List.suffix_cons_iff.mp hs with heq | hs
    · obtain ⟨rfl, rfl⟩ := List.cons.inj heq
      generalize hbefore : d :: earlier = before at harr
      have hd : d ∈ before := hbefore ▸ List.mem_cons_self
      cases harr with
      | choice => simp at hd
      | requested | finished => exact (scene_of_announced hd).symm
    · exact absurd hd' (harr.quiet d' (hs.mem List.mem_cons_self)).1

section Runs

variable {name : String} {depthLimit maxStates : Option Int} {outside : Scene} {l : L} {n : Nat}

variable (P A name depthLimit maxStates outside l) in
/-- A search with a log is abreast of the search with a transcript. -/
lemma abreast_recorded (n : Nat) :
    Abreast Abridged Abridged Eq
      ((transcribedAfter P A name depthLimit maxStates outside l n).search,
        (transcribedAfter P A name depthLimit maxStates outside l n).stage)
      ((after P A.recorded n (fresh name depthLimit maxStates outside l)).search,
        (after P A.recorded n (fresh name depthLimit maxStates outside l)).stage) :=
  have hstart : Abreast Abridged Abridged Eq
      (Search.new name depthLimit maxStates outside (l, []), (.waiting : Stage σ))
      ((Search.new name depthLimit maxStates outside (l, []) : Search (L × Log) κ), .waiting) :=
    .alike rfl trivial
  (abreast_after (P := P) A.concurs_recorded (x := ofSearch _) (y := ofSearch _) hstart rfl n).1

variable (P A name depthLimit maxStates outside l) in
/-- A search with a log is what it is with a transcript. -/
lemma search_recorded (n : Nat) :
    (after P A.recorded n (fresh name depthLimit maxStates outside l)).search =
      (transcribedAfter P A name depthLimit maxStates outside l n).search.serving
        ((transcribedAfter P A name depthLimit maxStates outside l n).search.listeners.1,
          log (transcribedAfter P A name depthLimit maxStates outside l n).search.listeners.2) := by
  obtain ⟨l', hsearch, hl, -⟩ :=
    (abreast_recorded P A name depthLimit maxStates outside l n).exists_serving A.concurs_recorded
  obtain rfl : l' = _ := hl
  exact hsearch

variable (P A name depthLimit maxStates outside l) in
/-- The log of a search is that of its transcript. -/
lemma after_recorded (n : Nat) :
    (after P A.recorded n (fresh name depthLimit maxStates outside l)).search.listeners.2 =
      log (transcribedAfter P A name depthLimit maxStates outside l n).search.listeners.2 := by
  rw [search_recorded, serving_listeners]

variable (P A name depthLimit maxStates outside l) in
/-- The log of a regular search is regular however it is written down. -/
lemma regular_transcribed (n : Nat) : Log.Regular
    (log (transcribedAfter P A name depthLimit maxStates outside l n).search.listeners.2) := by
  have h : Log.Regular (after P A.recorded n (fresh name depthLimit maxStates outside
      l)).search.listeners.2 := regular_after n
  rwa [after_recorded] at h

variable (P A name depthLimit maxStates outside l) in
/-- What a move of a run says. -/
lemma exists_spoken (n : Nat) : ∃ new : Transcript,
    (transcribedAfter P A name depthLimit maxStates outside l (n + 1)).search.listeners.2 =
        new ++ (transcribedAfter P A name depthLimit maxStates outside l n).search.listeners.2 ∧
      ∃ (s : Search (L × Log) κ) (stage : Stage σ), Speaks P s stage (log new) := by
  obtain ⟨new, hT, -⟩ := exists_said P A name depthLimit maxStates outside l n
  obtain ⟨new', hlog, hspeaks⟩ := speaks_step (P := P) (A := A)
    (after P A.recorded n (fresh name depthLimit maxStates outside l))
  rw [← after_succ, after_recorded, after_recorded] at hlog
  have hlog : log (transcribedAfter P A name depthLimit maxStates outside l
      (n + 1)).search.listeners.2 =
      new' ++ log (transcribedAfter P A name depthLimit maxStates outside l n).search.listeners.2 :=
    hlog
  rw [hT, log, List.map_append] at hlog
  obtain rfl := List.append_cancel_right hlog
  exact ⟨new, hT, _, _, hspeaks⟩

/-- A boundary right after an instruction shows the same as the conclusion of the instruction, in
every run: nothing has run in between.

**Proof sketch.** What comes after the conclusion of an instruction is said by the move that says the
conclusion, `exists_sequel`; and what a move says of a boundary shows the same as what it says
before. -/
theorem scene_of_boundary {later earlier : Transcript} {d d' : Delivery} {r r' : Reaction}
    {i : Instruction} {next : Option Instruction}
    (h : (transcribedAfter P A name depthLimit maxStates outside l n).search.listeners.2 =
      later ++ (d', r') :: (d, r) :: earlier)
    (hd : d.notice = .executed i next) (hd' : d'.notice = .advanced) :
    d'.view.scene = d.view.scene := by
  rw [List.append_cons] at h
  obtain ⟨hnil, -⟩ | ⟨hnil, -⟩ | ⟨rest', e, m, he, -, hbefore, hafter, -⟩ := exists_sequel h hd
  · simp at hnil
  · simp at hnil
  obtain rfl : (d', r') = e := List.singleton_inj.mp (List.append_inj' he rfl).2
  obtain ⟨new, hT, s, stage, hspeaks⟩ :=
    exists_spoken P A name depthLimit maxStates outside l m
  obtain ⟨before, rfl⟩ := hbefore
  obtain ⟨rest, hrest⟩ := hafter
  obtain rfl : rest ++ (d', r') :: (d, r) :: before = new := by
    have heq := hrest.trans hT
    rw [← List.cons_append, ← List.cons_append, ← List.append_assoc] at heq
    exact List.append_cancel_right heq
  rw [log, List.map_append] at hspeaks
  exact hspeaks.scene_eq hd'

/-- A wish for a boundary is granted right after the instruction, and nothing has run until then,
unless a listener fails there, the search has been ended, or no fingerprint of the boundary can be
made. -/
theorem boundary_of_wish {later earlier : Transcript} {d : Delivery} {r : Reaction}
    {i : Instruction} {next : Option Instruction}
    (h : (transcribedAfter P A name depthLimit maxStates outside l n).search.listeners.2 =
      later ++ (d, r) :: earlier)
    (hlive : (transcribedAfter P A name depthLimit maxStates outside l n).search.terminated = false)
    (hd : d.notice = .executed i next) (hr : r.failure = none)
    (hwish : r.breakReason.isSome = true) :
    (later = [] ∧ Stranded P A name depthLimit maxStates outside l n d r earlier) ∨
      ∃ (rest : Transcript) (d' : Delivery) (r' : Reaction), later = rest ++ [(d', r')] ∧
        d'.notice = .advanced ∧ d'.view.scene = d.view.scene := by
  obtain ⟨-, hfail⟩ | hstranded | ⟨rest, ⟨d', r'⟩, m, rfl, hm, -, -, -, hnext⟩ :=
    exists_sequel h hd
  · exact absurd hr hfail
  · exact .inl hstranded
  have hadv : d'.notice = .advanced := by
    simp only [hd] at hnext
    cases next with
    | some j => simpa only [hwish, if_true] using hnext
    | none =>
      have hterm : r.terminate = false := unended_after hlive (d, r) (by simp [h])
      have hshut := terminated_of_le (P := P) (A := A.transcribed) (x := ofSearch _) trivial hm.le
        hlive
      rw [← transcribedAfter] at hshut
      simp only [hshut, hterm, Bool.or_self, Bool.false_eq_true, if_false] at hnext
      exact hnext.1
  rw [List.append_assoc] at h
  exact .inr ⟨rest, d', r', rfl, hadv, scene_of_boundary h hd hadv⟩

end Runs

end Exploration

end StateAtlas
