import StateAtlas.Proofs.Search.Act

set_option autoImplicit false

/-!
# The course of a log

What may be delivered next depends on what has been delivered. New states get the next number; a
boundary and an instruction are announced only while an execution is under way; and the instruction
said to have run is the one that was announced, unless a choice has been restored in between. All of
this holds of every search, whatever its listeners do.

## Main definitions

* `StateAtlas.Log.underway` — an execution is under way.
* `StateAtlas.Log.begun` — the instruction that was announced and has not been said to have run.
* `StateAtlas.Log.resumed` — a choice has been restored since an instruction was spoken of.
* `StateAtlas.Log.Admits` — what may be delivered after a log.
* `StateAtlas.Log.Regular` — a log each delivery of which was admitted.

## Main results

* `StateAtlas.Exploration.regular_after` — the log of every search is regular.
* `StateAtlas.Log.undivided_of_underway` — as long as no choice is restored, an execution that is
  under way has met no retreat and no known state.
* `StateAtlas.Log.Admits.concluded` — the instruction that has run is the one announced, with its
  effects.
* `StateAtlas.Log.Regular.eq_of_stateId` — every state is discovered once.
-/

namespace StateAtlas

variable {σ L κ : Type}

namespace Log

/-! ## Readings of a log -/

/-- Whether an execution is under way: it has begun or gone on from a restored choice, and has not
come to a known state since. -/
def underway : Log → Bool
  | [] => true
  | d :: earlier =>
    match d.notice with
    | .restored => true
    | .backtracked | .finished => false
    | .advanced => d.view.isNew && underway earlier
    | _ => underway earlier

/-- The instruction that was announced last, unless it has been said to have run or a choice has
been restored since. -/
def begun : Log → Option Instruction
  | [] => none
  | d :: earlier =>
    match d.notice with
    | .executing i => some i
    | .executed .. | .restored => none
    | _ => begun earlier

/-- Whether a choice has been restored since an instruction was spoken of. -/
def resumed : Log → Bool
  | [] => false
  | d :: earlier =>
    match d.notice with
    | .restored => true
    | .executing _ | .executed .. => false
    | _ => resumed earlier

/-- A notice that an execution gives. -/
def isLively : Notice → Bool
  | .executing _ | .executed .. | .advanced => true
  | _ => false

/-- What is known of the instruction that is said to have run after a log: it is the one that was
announced, with its effects, or a choice has been restored. -/
def Accounts (log : Log) (i : Instruction) : Prop :=
  resumed log = true ∨ ∃ j es, begun log = some j ∧ i = List.foldl Instruction.apply j es

/-- What may be delivered after a log. -/
structure Admits (earlier : Log) (d : Delivery) : Prop where
  numbered : d.notice = .advanced → d.view.isNew = true →
    d.view.stateId = ((discovered earlier).length : Int)
  known : d.notice = .advanced → d.view.isNew = false → d.view.stateId ∈ discovered earlier
  lively : isLively d.notice = true → underway earlier = true
  begins : ∀ i, d.notice = .executing i → begun earlier = none
  concludes : ∀ i next, d.notice = .executed i next → Accounts earlier i
  opens : d.notice = .started → earlier = []

/-- Every delivery of a log was admitted by what had been delivered before. -/
def Regular (log : Log) : Prop := ∀ d earlier, d :: earlier <:+ log → Admits earlier d

lemma regular_nil : Regular [] := fun d earlier h => absurd (List.suffix_nil.mp h) (by simp)

/-- One more delivery that is admitted. -/
lemma Regular.cons {d : Delivery} {log : Log} (h : Regular log) (hd : Admits log d) :
    Regular (d :: log) := by
  intro d' earlier hs
  rcases List.suffix_cons_iff.mp hs with heq | hs
  · obtain ⟨rfl, rfl⟩ := List.cons.inj heq
    exact hd
  · exact h d' earlier hs

/-- What was delivered up to some moment is regular too. -/
lemma Regular.of_suffix {log log' : Log} (h : Regular log) (hs : log' <:+ log) : Regular log' :=
  fun d earlier hd => h d earlier (hd.trans hs)

/-! ## What lies between two deliveries -/

/-- While an execution is under way without a restored choice, there has been no retreat, and no
known state. -/
lemma undivided_of_underway {between log : Log} (h : underway (between ++ log) = true)
    (hr : ∀ d ∈ between, d.notice ≠ .restored) :
    (∀ d ∈ between, d.notice ≠ .backtracked ∧ d.notice ≠ .finished ∧
      (d.notice = .advanced → d.view.isNew = true)) := by
  induction between with
  | nil => simp
  | cons d between ih =>
    have hd := hr d List.mem_cons_self
    have keep : underway (between ++ log) = true ∧ d.notice ≠ .backtracked ∧
        d.notice ≠ .finished ∧ (d.notice = .advanced → d.view.isNew = true) := by
      rw [List.cons_append, underway] at h
      cases hn : d.notice <;> simp_all
    intro d' hd'
    rcases List.mem_cons.mp hd' with rfl | hd'
    · exact keep.2
    · exact ih keep.1 (fun d hd => hr d (List.mem_cons_of_mem _ hd)) d' hd'

/-- An instruction that is still to be said to have run was announced before everything that
announces none, and nothing has been said to have run since. -/
lemma begun_append {between log : Log} {j : Instruction}
    (he : ∀ d ∈ between, ∀ i, d.notice ≠ .executing i) (h : begun (between ++ log) = some j) :
    begun log = some j ∧ ∀ d ∈ between, ∀ i next, d.notice ≠ .executed i next := by
  induction between with
  | nil => exact ⟨h, by simp⟩
  | cons d between ih =>
    have hd := he d List.mem_cons_self
    have keep : begun (between ++ log) = some j ∧ ∀ i next, d.notice ≠ .executed i next := by
      rw [List.cons_append, begun] at h
      cases hn : d.notice <;> simp_all
    obtain ⟨hlog, hall⟩ := ih (fun d hd => he d (List.mem_cons_of_mem _ hd)) keep.1
    refine ⟨hlog, fun d' hd' => ?_⟩
    rcases List.mem_cons.mp hd' with rfl | hd'
    · exact keep.2
    · exact hall d' hd'

/-- Without a restored choice nothing is resumed. -/
lemma resumed_append {between log : Log} (hr : ∀ d ∈ between, d.notice ≠ .restored)
    (h : resumed (between ++ log) = true) : resumed log = true := by
  induction between with
  | nil => exact h
  | cons d between ih =>
    have hd := hr d List.mem_cons_self
    refine ih (fun d hd => hr d (List.mem_cons_of_mem _ hd)) ?_
    rw [List.cons_append, resumed] at h
    cases hn : d.notice <;> simp_all

/-- The instruction that is said to have run is the one that was announced last, with its effects,
and has not been spoken of before, unless a choice has been restored in between. -/
lemma Admits.concluded {between log : Log} {x y : Delivery} {i j : Instruction}
    {next : Option Instruction} (h : Admits (between ++ y :: log) x)
    (hx : x.notice = .executed i next) (hy : y.notice = .executing j)
    (he : ∀ d ∈ between, ∀ i, d.notice ≠ .executing i)
    (hr : ∀ d ∈ between, d.notice ≠ .restored) :
    (∃ es, i = List.foldl Instruction.apply j es) ∧
      ∀ d ∈ between, ∀ i next, d.notice ≠ .executed i next := by
  rcases h.concludes i next hx with hres | ⟨j', es, hb, rfl⟩
  · have := resumed_append hr hres
    simp [resumed, hy] at this
  · obtain ⟨hb, hall⟩ := begun_append he hb
    obtain rfl : j = j' := by simpa [begun, hy] using hb
    exact ⟨⟨es, rfl⟩, hall⟩

/-- Between two instructions that are said to have run one is announced, unless a choice has been
restored. -/
lemma Admits.separated {between log : Log} {x y : Delivery} {i j : Instruction}
    {next next' : Option Instruction} (h : Admits (between ++ y :: log) x)
    (hx : x.notice = .executed i next) (hy : y.notice = .executed j next')
    (hr : ∀ d ∈ between, d.notice ≠ .restored) : ∃ d ∈ between, ∃ i, d.notice = .executing i := by
  by_contra hnone
  push Not at hnone
  rcases h.concludes i next hx with hres | ⟨j', es, hb, -⟩
  · have := resumed_append hr hres
    simp [resumed, hy] at this
  · simpa [begun, hy] using (begun_append hnone hb).1

/-! ## The numbers of new states -/

lemma length_discovered_cons (d : Delivery) (log : Log) :
    (discovered log).length ≤ (discovered (d :: log)).length := by
  rw [discovered]
  split
  · split <;> simp
  · exact Nat.le_refl _

/-- No state is ever undiscovered. -/
lemma length_discovered_of_suffix {log log' : Log} (h : log <:+ log') :
    (discovered log).length ≤ (discovered log').length := by
  obtain ⟨new, rfl⟩ := h
  induction new with
  | nil => exact Nat.le_refl _
  | cons d new ih => exact Nat.le_trans ih (length_discovered_cons d (new ++ log))

/-- A delivery that announces a new state. -/
def discovers (d : Delivery) : Prop := d.notice = .advanced ∧ d.view.isNew = true

/-- The number of a new state tells when it was announced. -/
lemma Regular.eq_of_stateId {log : Log} (h : Regular log) {d d' : Delivery} {earlier earlier' : Log}
    (hd : d :: earlier <:+ log) (hd' : d' :: earlier' <:+ log) (hnew : discovers d)
    (hnew' : discovers d') (hid : d.view.stateId = d'.view.stateId) :
    d = d' ∧ earlier = earlier' := by
  have number : ∀ {d earlier}, d :: earlier <:+ log → discovers d →
      d.view.stateId = ((discovered earlier).length : Int) ∧
        (discovered (d :: earlier)).length = (discovered earlier).length + 1 :=
    fun {d earlier} hd hn => ⟨(h d earlier hd).numbered hn.1 hn.2, by
      rw [discovered, hn.1]
      simp [hn.2]⟩
  have shorter : ∀ {d d' earlier earlier'}, d :: earlier <:+ log → d' :: earlier' <:+ log →
      discovers d → discovers d' → d.view.stateId = d'.view.stateId →
        ¬d :: earlier <:+ earlier' := by
    intro d d' earlier earlier' hd hd' hn hn' hid hs
    have hle := length_discovered_of_suffix hs
    obtain ⟨h1, h2⟩ := number hd hn
    obtain ⟨h1', -⟩ := number hd' hn'
    omega
  rcases List.suffix_or_suffix_of_suffix hd hd' with hs | hs
  · rcases List.suffix_cons_iff.mp hs with heq | hs
    · exact List.cons.inj heq
    · exact absurd hs (shorter hd hd' hnew hnew' hid)
  · rcases List.suffix_cons_iff.mp hs with heq | hs
    · obtain ⟨h1, h2⟩ := List.cons.inj heq
      exact ⟨h1.symm, h2.symm⟩
    · exact absurd hs (shorter hd' hd hnew' hnew hid.symm)

/-! ## The instructions on the way -/

/-- There is always a current leg. -/
lemma legs_ne_nil (log : Log) : legs log ≠ [] := by
  induction log with
  | nil => simp [legs]
  | cons d log ih =>
    rw [legs]
    split <;> simp_all

/-- The instruction that has just been said to have run is the last one on the way. -/
lemma getLast?_executed {d : Delivery} {log : Log} {i : Instruction} {next : Option Instruction}
    (h : d.notice = .executed i next) : (executed (d :: log)).getLast? = some (i, next) := by
  obtain ⟨leg, legs', hlegs⟩ := List.exists_cons_of_ne_nil (legs_ne_nil log)
  have hcons := legs_executed hlegs d.view i next
  rw [← h] at hcons
  simp [executed, hcons]

/-- What moves the search along no transition leaves the way as it is. -/
lemma executed_append {between log : Log} (h : ∀ d ∈ between, isIdle d.notice = true) :
    executed (between ++ log) = executed log := by
  induction between with
  | nil => rfl
  | cons d between ih =>
    rw [List.cons_append, executed, legs_idle (h d List.mem_cons_self) d.view]
    exact ih fun d' hd' => h d' (List.mem_cons_of_mem d hd')

/-! ## What a phase knows of the log -/

/-- What the phase of a search says of its log. -/
def Fits (log : Log) : Phase → Prop
  | .waiting => log = []
  | .fresh => underway log = true ∧ begun log = none
  | .running none => underway log = true ∧ begun log = none
  | .running (some e) => underway log = true ∧ Accounts log e
  | _ => True

lemma Fits.underway {log : Log} {previous : Option Instruction} (h : Fits log (.running previous)) :
    underway log = true := by
  cases previous <;> exact h.1

/-- A failure of a listener is no hindrance. -/
lemma fits_told {log : Log} {φ : Phase} (f : Option Fault) (h : Fits log φ) :
    Fits log (.told f φ) := by
  cases f with
  | none => exact h
  | some f => trivial

/-- A delivery that says nothing of the course of an execution leaves its readings as they are. -/
lemma readings_eq {d : Delivery} (log : Log)
    (h : d.notice = .constraintHit ∨ d.notice = .advanced ∧ d.view.isNew = true) :
    Log.underway (d :: log) = Log.underway log ∧ begun (d :: log) = begun log ∧
      resumed (d :: log) = resumed log := by
  rcases h with h | ⟨h, hn⟩
  · simp [Log.underway, begun, resumed, h]
  · simp [Log.underway, begun, resumed, h, hn]

/-- Where the readings of two logs are the same, so is what a phase says of them, once something has
been said. -/
lemma fits_congr {log log' : Log} (hu : Log.underway log' = Log.underway log)
    (hb : begun log' = begun log) (hr : resumed log' = resumed log) {φ : Phase} (hφ : φ ≠ .waiting)
    (h : Fits log φ) : Fits log' φ := by
  cases φ with
  | waiting => exact absurd rfl hφ
  | running previous =>
    cases previous with
    | none => exact ⟨hu ▸ h.1, hb ▸ h.2⟩
    | some e => exact ⟨hu ▸ h.1, by simpa only [Accounts, hb, hr] using h.2⟩
  | fresh => exact ⟨hu ▸ h.1, hb ▸ h.2⟩
  | _ => trivial

/-- A notice that an execution does not give is always admitted, but for the first one. -/
lemma admits_of_not_lively {log : Log} {d : Delivery} (h : isLively d.notice = false)
    (hs : d.notice = .started → log = []) : Admits log d := by
  have hadv : d.notice ≠ .advanced := fun hd => by simp [isLively, hd] at h
  exact ⟨fun hd => absurd hd hadv, fun hd => absurd hd hadv, fun hd => by simp [h] at hd,
    fun i hd => by simp [isLively, hd] at h, fun i next hd => by simp [isLively, hd] at h, hs⟩

/-- A notice that is no boundary says nothing of numbers. -/
lemma admits_of_ne {log : Log} {d : Delivery} (h : d.notice ≠ .advanced) (hs : d.notice ≠ .started)
    (lively : Log.underway log = true) (begins : ∀ i, d.notice = .executing i → begun log = none)
    (concludes : ∀ i next, d.notice = .executed i next → Accounts log i) : Admits log d :=
  ⟨fun hd => absurd hd h, fun hd => absurd hd h, fun _ => lively, begins, concludes,
    fun hd => absurd hd hs⟩

/-- A log that stands as a search in some phase with a number of states leaves it. -/
structure Course (log : Log) (count : Nat) (φ : Phase) : Prop where
  regular : Regular log
  discovered : discovered log = (List.range count).map fun i : Nat => (i : Int)
  fits : Fits log φ

namespace Course

variable {log : Log} {count : Nat} {φ : Phase}

/-- The same log in another phase that it fits. -/
lemma phase (h : Course log count φ) {ψ : Phase} (hψ : Fits log ψ) : Course log count ψ :=
  ⟨h.regular, h.discovered, hψ⟩

/-- A delivery that announces no boundary. -/
lemma deliver (h : Course log count φ) {d : Delivery} (hd : d.notice ≠ .advanced)
    (ha : Admits log d) {ψ : Phase} (hψ : Fits (d :: log) ψ) : Course (d :: log) count ψ := by
  refine ⟨h.regular.cons ha, ?_, hψ⟩
  rw [← h.discovered]
  cases hn : d.notice <;> simp_all [Log.discovered]

/-- Limits that are announced change nothing. -/
lemma limits {later : Log} (hl : ∀ d ∈ later, d.notice = .constraintHit) (hφ : φ ≠ .waiting)
    (h : Course log count φ) : Course (later ++ log) count φ := by
  induction later with
  | nil => exact h
  | cons d later ih =>
    have hd := hl d List.mem_cons_self
    have ih := ih fun d' hd' => hl d' (List.mem_cons_of_mem d hd')
    obtain ⟨hu, hb, hr⟩ := readings_eq (later ++ log) (.inl hd)
    exact ih.deliver (by simp [hd]) (admits_of_not_lively (by simp [isLively, hd]) (by simp [hd]))
      (fits_congr hu hb hr hφ ih.fits)

end Course

end Log

namespace Search

variable [DecidableEq κ] {A : Audience L}

/-- The path goes on only from a new state. -/
lemma unseen_of_onward {s t : Search L κ} {scene : Scene} {top : Option FrameId} {b : Boundary}
    {key : κ} (h : s.advance A scene top b key = (t, .onward)) : key ∉ s.seen := by
  unfold advance at h
  cases hn : (s.enter b key).notify A scene top .advanced with
  | mk u f =>
    have hu : u.isNew = decide (key ∉ s.seen) := by
      rw [eq_told A hn, told_isNew, enter_eq]
    rw [hn] at h
    cases f with
    | some f => simp at h
    | none =>
      intro hk
      simp [hu, hk] at h

/-- The fingerprints after a boundary. -/
lemma advance_seen {s t : Search L κ} {scene : Scene} {top : Option FrameId} {b : Boundary}
    {key : κ} {r : Progress} (h : s.advance A scene top b key = (t, r)) :
    t.seen = s.seenAfter key := by
  rcases advance_eq h with ⟨rfl, -⟩ | ⟨limit, flag, -, -, rfl⟩
  · exact entered_seen A s scene top b key
  · exact entered_seen A s scene top b key

/-- A boundary that is reached while an execution is under way keeps to the course. -/
lemma course_arrival {s : Search L κ} {log : Log} {previous : Option Instruction} (scene : Scene)
    (top : Option FrameId) (b : Boundary) (key : κ)
    (h : Log.Course log s.seen.size (.running previous)) :
    Log.Course (s.arrival scene top b key :: log) (s.seenAfter key).size
      (if key ∈ s.seen then .resting else .running previous) := by
  have hnotice : (s.arrival scene top b key).notice = .advanced := rfl
  have hid := arrival_stateId s scene top b key
  have hnew := arrival_isNew s scene top b key
  have hlen : (Log.discovered log).length = s.seen.size := by simp [h.discovered]
  refine ⟨h.regular.cons ⟨?_, ?_, fun _ => h.fits.underway, by simp [hnotice], by simp [hnotice],
    by simp [hnotice]⟩,
    ?_, ?_⟩
  · intro _ hn
    have hk : key ∉ s.seen := by simpa [hnew] using hn
    rw [hid, hlen, (identify_of_not_mem hk).1]
  · intro _ hn
    have hk : key ∈ s.seen := by simpa [hnew] using hn
    obtain ⟨hi, -⟩ := identify_of_mem hk
    rw [hid, h.discovered]
    exact List.mem_map.mpr ⟨_, List.mem_range.mpr hi, rfl⟩
  · rw [Log.discovered, hnotice]
    by_cases hk : key ∈ s.seen
    · simp [hk, h.discovered, seenAfter]
    · simp [hk, h.discovered, seenAfter, (identify_of_not_mem hk).1, List.range_succ]
  · split
    · trivial
    · rename_i hk
      obtain ⟨hu, hb, hr⟩ := Log.readings_eq log (d := s.arrival scene top b key)
        (.inr ⟨hnotice, by simp [hk]⟩)
      exact Log.fits_congr hu hb hr (by simp) h.fits

/-- Every act keeps to the course. -/
lemma course_act {x y : Search (L × Log) κ × Phase} (ha : Act A.recorded x y)
    (h : Log.Course x.1.listeners.2 x.1.seen.size x.2) :
    Log.Course y.1.listeners.2 y.1.seen.size y.2 := by
  cases ha with
  | report r => exact h
  | note => exact h
  | leave => exact h.phase trivial
  | start => exact h.phase h.fits
  | quit => exact h.phase trivial
  | turn => exact h.phase trivial
  | unmade => exact h.phase trivial
  | @effect s previous e =>
    refine h.phase ?_
    cases previous with
    | none => exact h.fits
    | some i =>
      refine ⟨h.fits.1, h.fits.2.imp_right ?_⟩
      rintro ⟨j, es, hb, rfl⟩
      exact ⟨j, es ++ [e], hb, by simp⟩
  | @begin s t f hn =>
    obtain rfl := eq_told _ hn
    have hlog : s.listeners.2 = [] := h.fits
    refine h.deliver (by simp) (Log.admits_of_not_lively rfl fun _ => hlog) (Log.fits_told f ?_)
    unfold opening
    split
    · rw [hlog]
      exact ⟨rfl, rfl⟩
    · trivial
  | @conclude s t scene top e next f hn =>
    obtain rfl := eq_told _ hn
    have hd : Log.Admits s.listeners.2 ⟨s.view scene top, .executed e next⟩ :=
      Log.admits_of_ne (by simp) (by simp) h.fits.1 (by simp) fun i next' heq => by
        obtain ⟨rfl, -⟩ := Notice.executed.inj heq
        exact h.fits.2
    exact h.deliver (by simp) hd (Log.fits_told f ⟨h.fits.1, rfl⟩)
  | @execute s t scene top i f hn =>
    obtain rfl := eq_told _ hn
    have hd : Log.Admits s.listeners.2 ⟨s.view scene top, .executing i⟩ :=
      Log.admits_of_ne (by simp) (by simp) h.fits.1 (fun _ _ => h.fits.2) (by simp)
    exact h.deliver (by simp) hd (Log.fits_told f ⟨h.fits.1, .inr ⟨i, [], rfl, rfl⟩⟩)
  | @reach s t scene top b key previous r hadv =>
    obtain ⟨later, hlog, hlater⟩ := advance_said hadv
    have harr := Log.Course.limits hlater (by split <;> simp) (course_arrival scene top b key h)
    simp only
    rw [hlog, advance_seen hadv]
    cases r with
    | onward => simpa [unseen_of_onward hadv] using harr
    | halt => exact harr.phase trivial
    | failed f => exact harr.phase trivial
  | @restore s t scene top f previous hn =>
    obtain rfl := eq_told _ hn
    refine h.deliver (by simp) (Log.admits_of_not_lively rfl (by simp)) (Log.fits_told f ?_)
    cases previous with
    | none => exact ⟨rfl, rfl⟩
    | some e => exact ⟨rfl, .inl rfl⟩
  | @retreat s t e rest f hp ht hn =>
    obtain rfl := eq_told _ hn
    exact h.deliver (by simp) (Log.admits_of_not_lively rfl (by simp)) (Log.fits_told f trivial)
  | @finish s t f hn =>
    obtain rfl := eq_told _ hn
    exact h.deliver (by simp) (Log.admits_of_not_lively rfl (by simp)) trivial

end Search

namespace Exploration

variable {P : Program σ κ} {A : Audience L} [DecidableEq κ]

section Fresh

variable {name : String} {depthLimit maxStates : Option Int} {outside : Scene} {l : L}

/-- Every search keeps to the course, whatever its listeners do. -/
theorem course_after (n : Nat) :
    Log.Course
      (after P A.recorded n (fresh name depthLimit maxStates outside l)).search.listeners.2
      (after P A.recorded n (fresh name depthLimit maxStates outside l)).search.seen.size
      (phase (after P A.recorded n (fresh name depthLimit maxStates outside l)).search
        (after P A.recorded n (fresh name depthLimit maxStates outside l)).stage) :=
  let Holds (y : Search (L × Log) κ × Phase) : Prop :=
    Log.Course y.1.listeners.2 y.1.seen.size y.2
  have hstart : Holds ((fresh name depthLimit maxStates outside l : Exploration σ _ κ).search, .waiting) :=
    ⟨Log.regular_nil, rfl, rfl⟩
  invariant_after (A := A.recorded) (P := P) orderly_fresh hstart Search.course_act n

/-- The log of every search is regular. -/
theorem regular_after (n : Nat) : Log.Regular
    (after P A.recorded n (fresh name depthLimit maxStates outside l)).search.listeners.2 :=
  (course_after n).regular

end Fresh

end Exploration

end StateAtlas
