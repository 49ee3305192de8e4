import StateAtlas.Proofs.Program.Execution

set_option autoImplicit false

/-!
# The futures of a place

From a boundary a program goes on to its end in as many ways as there are alternatives to follow.
All of them depend on the configuration in which it waits there, and on nothing that came before.

## Main definitions

* `StateAtlas.Program.waiting`, `StateAtlas.Program.frameAt` — the configuration in which a program
  waits at a boundary, and the frame in which it does so.
* `StateAtlas.Program.Finishes` — some alternatives lead from a place to an end of the program.
* `StateAtlas.Place.Abreast` — two executions that have gone on in the same way.

## Main results

* `StateAtlas.Program.exists_abreast` — an execution is followed by one from another place in the
  same configuration.
* `StateAtlas.Program.finishes_iff` — boundaries at which a program waits in the same configuration
  have the same futures.
-/

namespace StateAtlas

variable {σ κ : Type}

/-- Two executions that have gone on in the same way from two places on: they are in the same
configuration, in the same frame, and have followed the same alternatives. -/
structure Place.Abreast (o o' l l' : Place σ) : Prop where
  config : l.config = l'.config
  frame : l.frame = l'.frame
  choices : ∃ as, l.choices = o.choices ++ as ∧ l'.choices = o'.choices ++ as

namespace Program

variable (P : Program σ κ)

/-- The configuration in which the program waits at a boundary. -/
def waiting (l : Place σ) : σ := (P.next l.config).config

/-- The frame in which the program waits at a boundary: that of the instruction that comes next
where a listener may ask for a boundary, that of the last one at a choice, and none at the end. -/
def frameAt (l : Place σ) : Option FrameId :=
  match P.next l.config with
  | .instruction i _ => some i.frame
  | .ended .. => none
  | _ => l.frame

/-- The program can go on from a place along some alternatives to its end, and ends in some
configuration. -/
def Finishes (l : Place σ) (as : List Nat) (q : σ) : Prop :=
  ∃ m ending, Relation.ReflTransGen P.Onward l m ∧ m.choices = l.choices ++ as ∧
    P.next m.config = .ended ending q

variable {P} {R R' : Place σ → Bool → Prop} {l l' m o o' : Place σ} {b : Boundary}
  {r r' : Except Fault κ}

/-- The fingerprint of a boundary is that of the configuration in which the program waits. -/
lemma At.exists_fingerprint (h : P.At R l b r) :
    ∃ i, r = P.fingerprint i (P.waiting l) (P.frameAt l) b := by
  cases h with
  | @choice _ _ i _ h _ hr => exact ⟨i, by simp [waiting, frameAt, h, Move.config, ← hr]⟩
  | @requested _ _ i _ h _ _ hr => exact ⟨i, by simp [waiting, frameAt, h, Move.config, ← hr]⟩
  | @finished _ _ i _ h _ _ hr => exact ⟨i, by simp [waiting, frameAt, h, Move.config, ← hr]⟩

/-! ## Executions that go on in the same way -/

/-- A move of an execution is followed by one of an execution abreast of it. -/
lemma Onward.exists_abreast (h : P.Onward l m) (hl : Place.Abreast o o' l l') :
    ∃ m', P.Onward l' m' ∧ Place.Abreast o o' m m' := by
  obtain ⟨hconfig, hframe, as, hc, hc'⟩ := hl
  cases h with
  | internal h => exact ⟨_, .internal (hconfig ▸ h), rfl, hframe, as, hc, hc'⟩
  | print h => exact ⟨_, .print (hconfig ▸ h), rfl, hframe, as, hc, hc'⟩
  | effect h => exact ⟨_, .effect (hconfig ▸ h), rfl, hframe, as, hc, hc'⟩
  | instruction h => exact ⟨_, .instruction (hconfig ▸ h), rfl, rfl, as, hc, hc'⟩
  | refuse h hn => exact ⟨_, .refuse (hconfig ▸ h) hn, rfl, hframe, as, hc, hc'⟩
  | choose h a ha =>
    exact ⟨_, .choose (hconfig ▸ h) a ha, rfl, hframe, as ++ [a], by simp [Place.choose, hc],
      by simp [Place.choose, hc']⟩

/-- An execution is followed by one abreast of it. -/
theorem exists_abreast (h : Relation.ReflTransGen P.Onward l m) (hl : Place.Abreast o o' l l') :
    ∃ m', Relation.ReflTransGen P.Onward l' m' ∧ Place.Abreast o o' m m' := by
  induction h with
  | refl => exact ⟨l', .refl, hl⟩
  | tail _ h ih =>
    obtain ⟨m', hm', hm⟩ := ih
    obtain ⟨n', hn', hn⟩ := h.exists_abreast hm
    exact ⟨n', hm'.tail hn', hn⟩

/-- The executions that go on from two boundaries of one kind are abreast if the program waits in
the same configuration. -/
lemma At.exists_abreast (hb : P.At R l b r) (hb' : P.At R' l' b r')
    (hq : P.waiting l = P.waiting l') (hf : P.frameAt l = P.frameAt l') (h : P.Onward l m) :
    ∃ m', P.Onward l' m' ∧ Place.Abreast l l' m m' := by
  cases hb with
  | @choice n q _ _ hn hpos =>
    obtain ⟨n', q', hn', hpos', hnn⟩ : ∃ n' q', P.next l'.config = .choice n' q' ∧ 1 ≤ n' ∧
        n.toNat = n'.toNat := by
      generalize hb : Boundary.choice n.toNat = b at hb'
      cases hb' with
      | choice h' hpos' => exact ⟨_, _, h', hpos', Boundary.choice.inj hb⟩
      | _ => cases hb
    obtain rfl : n = n' := by omega
    obtain rfl : q = q' := by simpa [waiting, hn, hn', Move.config] using hq
    have hframe : l.frame = l'.frame := by simpa [frameAt, hn, hn'] using hf
    cases h with
    | choose h a ha =>
      obtain ⟨rfl, rfl⟩ : _ ∧ _ := by simpa [hn] using h
      exact ⟨_, .choose hn' a ha, rfl, hframe, [a], rfl, rfl⟩
    | refuse h hlt =>
      obtain ⟨rfl, rfl⟩ : _ ∧ _ := by simpa [hn] using h
      omega
    | _ h => simp [hn] at h
  | @requested i q _ _ hi =>
    cases hb' with
    | @requested i' q' _ _ hi' =>
      obtain rfl : q = q' := by simpa [waiting, hi, hi', Move.config] using hq
      have hframe : i.frame = i'.frame := by simpa [frameAt, hi, hi'] using hf
      cases h with
      | instruction h =>
        obtain ⟨rfl, rfl⟩ : _ ∧ _ := by simpa [hi] using h
        exact ⟨_, .instruction hi', rfl, congrArg some hframe, [], by simp [Place.begin],
          by simp [Place.begin]⟩
      | choose h => simp [hi] at h
      | _ h => simp [hi] at h
  | finished he =>
    cases h with
    | choose h => simp [he] at h
    | _ h => simp [he] at h

/-! ## Futures -/

/-- What lies ahead of a boundary lies ahead of another one of its kind at which the program waits
in the same configuration. -/
lemma Finishes.of_waiting (hb : P.At R l b r) (hb' : P.At R' l' b r')
    (hq : P.waiting l = P.waiting l') (hf : P.frameAt l = P.frameAt l') {as : List Nat} {q : σ}
    (h : P.Finishes l as q) : P.Finishes l' as q := by
  obtain ⟨m, ending, hm, hc, hend⟩ := h
  rcases hm.cases_head with rfl | ⟨n, hn, hm⟩
  · obtain rfl : as = [] := by simpa using hc
    cases hb with
    | choice h => simp [h] at hend
    | requested h => simp [h] at hend
    | finished h =>
      obtain ⟨rfl, rfl⟩ : _ ∧ _ := by simpa [h] using hend
      cases hb' with
      | finished h' =>
        simp only [waiting, h, h', Move.config] at hq
        exact ⟨l', _, .refl, by simp, hq ▸ h'⟩
  · obtain ⟨n', hn', habreast⟩ := hb.exists_abreast hb' hq hf hn
    obtain ⟨m', hm', hconfig, -, as', hc₁, hc'⟩ := Program.exists_abreast hm habreast
    obtain rfl : as = as' := List.append_cancel_left (hc.symm.trans hc₁)
    exact ⟨m', ending, .head hn' hm', hc', hconfig ▸ hend⟩

/-- Boundaries of one kind at which the program waits in the same configuration have the same
futures. -/
theorem finishes_iff (hb : P.At R l b r) (hb' : P.At R' l' b r')
    (hq : P.waiting l = P.waiting l') (hf : P.frameAt l = P.frameAt l') (as : List Nat) (q : σ) :
    P.Finishes l as q ↔ P.Finishes l' as q :=
  ⟨.of_waiting hb hb' hq hf, .of_waiting hb' hb hq.symm hf.symm⟩

end Program

end StateAtlas
