import StateAtlas.Proofs.Code.Request
import StateAtlas.Proofs.Fingerprint.Agreement
import StateAtlas.Proofs.Search.Ends

set_option autoImplicit false

/-!
# What equal fingerprints say of code

The fingerprint of a process shows the variables of the module and of the functions on the stack, and
where each of these stands. Two processes that differ in nothing but plain values of these variables,
and in these places, are told apart by it, so that equal fingerprints at two boundaries make equal
futures. If all that boundaries of a program with equal fingerprints can differ in is of this kind, a
search finds every end of it, whatever its listeners are. A fingerprint does not show what waits on
the stacks of the activations: two outcomes of a choice in the middle of an expression lead to the
same fingerprint at the next choice, and to different values of the expression in the end.

An execution is determined by the alternatives it follows, so that it can be computed from them.
This is how places of some programs are found.

## Main definitions

* `StateAtlas.Program.forward?` — the next move of an execution that follows some alternatives.
* `StateAtlas.Program.forward` — a number of these moves.
* `StateAtlas.Process.Alike` — processes that differ in what is shown at most.
* `StateAtlas.tosses`, `StateAtlas.repeats` — programs with two choices.

## Main results

* `StateAtlas.Program.onward_iff_forward` — the places of an execution are those that are computed.
* `StateAtlas.CodeProgram.same_future_of_fingerprint` — equal fingerprints at processes that differ
  in what is shown at most make equal futures.
* `StateAtlas.CodeProgram.telling_of_alike` — they tell states if all processes differ in no more.
* `StateAtlas.CodeProgram.fingerprint_ambiguous` — equal fingerprints alone do not.
-/

namespace StateAtlas

variable {σ κ : Type}

namespace Program

variable (P : Program σ κ)

/-! ## Executions that follow some alternatives -/

/-- The next move of an execution that follows some alternatives, which are given from the start on.
There is none at the end of the program, nor at a choice after the last alternative. -/
def forward? (as : List Nat) (l : Place σ) : Option (Place σ) :=
  match P.next l.config with
  | .internal q | .print _ q => some { l with config := q }
  | .effect e q => some { l with config := q, previous := l.previous.map (·.apply e) }
  | .instruction i q => some (l.begin i (P.reply q .proceed))
  | .choice n q =>
    if n < 1 then some { l with config := P.reply q (.refuse n) }
    else
      match as[l.choices.length]? with
      | some a => if (a : Int) < n then some (l.choose a (P.reply q (.choose a))) else none
      | none => none
  | .terminate _ | .ended .. => none

/-- The place after a number of moves, or where no move is left. -/
def forward (as : List Nat) : Nat → Place σ → Place σ
  | 0, l => l
  | n + 1, l =>
    match P.forward? as l with
    | some m => forward as n m
    | none => l

variable {P}

/-- The next move is a move of an execution. -/
lemma onward_of_forward? {as : List Nat} {l m : Place σ} (h : P.forward? as l = some m) :
    P.Onward l m := by
  rw [forward?] at h
  cases hn : P.next l.config with
  | internal q => simp only [hn, Option.some.injEq] at h; exact h ▸ .internal hn
  | print text q => simp only [hn, Option.some.injEq] at h; exact h ▸ .print hn
  | effect e q => simp only [hn, Option.some.injEq] at h; exact h ▸ .effect hn
  | instruction i q => simp only [hn, Option.some.injEq] at h; exact h ▸ .instruction hn
  | terminate q => simp [hn] at h
  | ended ending q => simp [hn] at h
  | choice n q =>
    simp only [hn] at h
    split at h
    · rename_i hlt
      simp only [Option.some.injEq] at h
      exact h ▸ .refuse hn hlt
    · split at h
      · rename_i a _
        split at h
        · rename_i ha
          simp only [Option.some.injEq] at h
          exact h ▸ .choose hn a ha
        · simp at h
      · simp at h

/-- A move of an execution that follows alternatives is the next move. -/
lemma Onward.forward? {as : List Nat} {l m : Place σ} (h : P.Onward l m) (hc : m.choices <+: as) :
    P.forward? as l = some m := by
  rw [Program.forward?]
  cases h with
  | internal h => simp [h]
  | print h => simp [h]
  | effect h => simp [h]
  | instruction h => simp [h]
  | refuse h hn => simp [h, hn]
  | @choose n q h a ha =>
    have hpos : ¬n < 1 := by omega
    have hnth : as[l.choices.length]? = some a := by
      obtain ⟨later, rfl⟩ := hc
      simp [Place.choose]
    simp [h, hpos, hnth, ha]

/-- The moves are moves of an execution. -/
lemma onward_forward (as : List Nat) (n : Nat) (l : Place σ) :
    Relation.ReflTransGen P.Onward l (P.forward as n l) := by
  induction n generalizing l with
  | zero => exact .refl
  | succ n ih =>
    rw [forward]
    split
    · rename_i m h
      exact .head (onward_of_forward? h) (ih m)
    · exact .refl

/-- An execution gets from one place to another if and only if the second one is computed from the
first one and the alternatives followed up to it. -/
theorem onward_iff_forward {l m : Place σ} :
    Relation.ReflTransGen P.Onward l m ↔ ∃ n, P.forward m.choices n l = m := by
  constructor
  · intro h
    induction h using Relation.ReflTransGen.head_induction_on with
    | refl => exact ⟨0, rfl⟩
    | head h hm ih =>
      obtain ⟨n, hn⟩ := ih
      exact ⟨n + 1, by rw [forward, h.forward? (choices_prefix_of_onward hm)]; exact hn⟩
  · rintro ⟨n, hn⟩
    have h := onward_forward (P := P) m.choices n l
    rwa [hn] at h

variable (P) in
/-- The number of alternatives and the fingerprint at a choice of the first execution. -/
def choiceAt? (l : Place σ) : Option (Int × κ) :=
  match P.next l.config with
  | .choice n q =>
    match P.fingerprint 0 q l.frame (.choice n.toNat) with
    | .ok k => some (n, k)
    | .error _ => none
  | _ => none

/-- At a choice the program waits for an alternative. -/
lemma next_of_choiceAt? {l : Place σ} {n : Int} {k : κ} (h : P.choiceAt? l = some (n, k)) :
    P.next l.config = .choice n (P.waiting l) ∧
      P.fingerprint 0 (P.waiting l) l.frame (.choice n.toNat) = .ok k := by
  rw [choiceAt?] at h
  split at h
  · rename_i q hq
    split at h
    · rename_i hk
      simp only [Option.some.injEq, Prod.mk.injEq] at h
      obtain ⟨rfl, rfl⟩ := h
      simp [waiting, hq, Move.config, hk]
    · simp at h
  · simp at h

/-- A choice among at least one alternative is a boundary. -/
lemma at_of_choiceAt? {R : Place σ → Bool → Prop} {l : Place σ} {n : Int} {k : κ}
    (h : P.choiceAt? l = some (n, k)) (hn : 1 ≤ n) : P.At R l (.choice n.toNat) (.ok k) := by
  obtain ⟨hnext, hk⟩ := next_of_choiceAt? h
  exact .choice hnext hn hk

variable (P) in
/-- Whether the program has ended by itself. -/
def hasEnded (l : Place σ) : Bool :=
  match P.next l.config with
  | .ended .normal _ => true
  | _ => false

end Program

/-! ## Programs with two choices -/

/-- The variables of the module of a process. -/
def Process.moduleVariables (p : Process) : Bindings Value := p.heap.variables p.module

/-- The program that assigns the sum of two truth values to a variable, `x = get_boolean() +
get_boolean()`. The first one waits on the stack while the second one is asked for. -/
def tosses : CodeProgram :=
  .asking "tosses" [] (CodeProgram.askSteps "Verify" 14 ++ CodeProgram.askSteps "Verify" 42 ++
    [⟨70, "BINARY_OP", .text "+", .binary .add false⟩,
     ⟨74, "STORE_NAME", .text "x", .storeName "x"⟩] ++ CodeProgram.leaveSteps 76)

/-- The program that asks for one of two equal items, drops it, and assigns a truth value to a
variable, `get_choice((False, False))` and `x = get_boolean()`. -/
def repeats : CodeProgram :=
  .asking "repeats" []
    ([⟨14, "PUSH_NULL", .absent, .pushNull⟩,
      ⟨16, "LOAD_NAME", .text "Verify", .loadName "Verify"⟩,
      ⟨18, "LOAD_ATTR", .text "get_choice", .loadAttribute "get_choice"⟩,
      ⟨28, "LOAD_CONST", .constant (.tuple [.bool false, .bool false]),
        .loadConstant (.tuple [.bool false, .bool false])⟩,
      ⟨30, "PRECALL", .number 1, .idle⟩,
      ⟨34, "CALL", .number 1, .call 1⟩,
      ⟨44, "POP_TOP", .absent, .popTop⟩] ++ CodeProgram.askSteps "Verify" 46 ++
     [⟨74, "STORE_NAME", .text "x", .storeName "x"⟩] ++ CodeProgram.leaveSteps 76)

/-! ## Processes that differ in what is shown at most -/

/-- An activation waits at the instruction that its frame shows; the instructions of its code lie at
different offsets. -/
structure Activation.Stands (source : CodeProgram) (s : Scene) (a : Activation) : Prop where
  next : a.next = a.current + 1
  current : ∃ c step fr, source.codes[a.code]? = some c ∧ c.steps[a.current]? = some step ∧
    s.frame? a.frame = some fr ∧ fr.position = step.offset ∧
      (c.steps.toList.map CodeStep.offset).Nodup

/-- The same task, or activations of one frame that is shown, which wait at instructions that their
frames show. -/
inductive Task.Alike (source : CodeProgram) (frames : List FrameId) (s s' : Scene) :
    Task → Task → Prop
  | same (t : Task) : Alike source frames s s' t t
  | activation {a : Activation} {current next : Nat} (hf : a.frame ∈ frames)
      (h : a.Stands source s) (h' : { a with current, next }.Stands source s') :
      Alike source frames s s' (.activation a) (.activation { a with current, next })

/-- Processes that differ in plain values, and in where functions stand, at most, and only where the
picture of the given frames and of the module shows it. What waits on the stacks is the same. -/
structure Process.Alike (source : CodeProgram) (frames : List FrameId) (p p' : Process) : Prop where
  scene : Scene.Alike frames p.module p.scene p'.scene
  tasks : List.Forall₂ (Task.Alike source frames p.scene p'.scene) p.tasks p'.tasks
  rest : p' = { p with scene := p'.scene, tasks := p'.tasks }

/-- A process is like itself. -/
lemma Process.Alike.refl (source : CodeProgram) (frames : List FrameId) (p : Process) :
    Process.Alike source frames p p :=
  ⟨.refl _ _ _, List.forall₂_same.mpr fun t _ => .same t, rfl⟩

/-- The instruction at which an activation waits is told by where its frame stands. -/
lemma Task.Alike.eq {source : CodeProgram} {frames : List FrameId} {s : Scene} {t t' : Task}
    (h : Task.Alike source frames s s t t') : t = t' := by
  cases h with
  | same => rfl
  | @activation a current next hf h h' =>
    obtain ⟨c, step, fr, hc, hstep, hfr, hposition, hdistinct⟩ := h.current
    obtain ⟨c', step', fr', hc', hstep', hfr', hposition', -⟩ := h'.current
    obtain rfl : c = c' := Option.some.inj (hc.symm.trans hc')
    obtain rfl : fr = fr' := Option.some.inj (hfr.symm.trans hfr')
    have hoffset : step.offset = step'.offset := by
      have heq := hposition.symm.trans hposition'
      omega
    have hsteps : ∀ {i : Nat} {step : CodeStep}, c.steps[i]? = some step →
        (c.steps.toList.map CodeStep.offset)[i]? = some step.offset := fun h => by
      simp [Array.getElem?_toList, h]
    obtain rfl : a.current = current := by
      have hi := hsteps hstep
      have hj := hsteps hstep'
      rw [← hoffset, ← hi] at hj
      exact ((List.getElem?_inj (List.getElem?_eq_some_iff.mp hi).1 hdistinct).mp hj.symm)
    obtain rfl : a.next = next := h.next.trans h'.next.symm
    rfl

/-- Different kinds of boundary are pictured differently. -/
lemma Boundary.eq_of_key {b b' : Boundary} (h : b.frozen.key = b'.frozen.key) : b = b' := by
  cases b <;> cases b' <;>
    simp [Boundary.frozen, Frozen.key, Frozen.tokens, Frozen.tokensOf] at h ⊢
  omega

/-- A value that is a truth value is that truth value. -/
lemma Value.eq_of_boolean? {v : Value} {b : Bool} (h : v.boolean? = some b) : v = .bool b := by
  cases v <;> simp_all [boolean?]

namespace CodeProgram

open Program

/-- Alternatives with the same value lead to the same process. -/
lemma reply_eq_of_values (source : CodeProgram) {p : Process} {r : ChoiceRequest Value} {n : Int}
    (hp : p.mode = .choosing r) (hn : r.count = .ok n) {a a' : Nat} {v v' : Choice Value}
    (ha : r.values[a]? = some v) (ha' : r.values[a']? = some v') (hv : v.value = v'.value) :
    source.program.reply p (.choose a) = source.program.reply p (.choose a') := by
  rw [resume_choose source hp hn ha, resume_choose source hp hn ha', hv]

/-- The second choice after each of two outcomes of the first one, which are the same value, comes
at the same process. -/
lemma exists_repeats : ∃ (l l' : Place Process) (k : List Frozen.Mark),
    repeats.program.Reaches l ∧ repeats.program.Reaches l' ∧ l.choices = [0] ∧ l'.choices = [1] ∧
      repeats.program.At (fun _ _ => False) l (.choice 2) (.ok k) ∧
        repeats.program.At (fun _ _ => False) l' (.choice 2) (.ok k) ∧
          l.config = l'.config ∧ l.frame = l'.frame := by
  -- the first choice, the places after it, and the second choice after its first outcome
  let o : Place Process := repeats.program.forward [] 40 (repeats.program.startPlace 0)
  let p : Process := repeats.program.waiting o
  let l (a : Nat) : Place Process := o.choose a (repeats.program.reply p (.choose a))
  let m : Place Process := repeats.program.forward [0] 40 (l 0)
  have hfirst : (repeats.program.choiceAt? o).map Prod.fst = some 2 ∧ o.choices = [] := by
    decide +kernel
  have hvalues : (match p.mode with
      | .choosing r => r.values.map fun v : Choice Value => v.value.boolean?
      | _ => []) = [some false, some false] := by decide +kernel
  have hsecond : (repeats.program.choiceAt? m).map Prod.fst = some 2 ∧ m.choices = [0] := by
    decide +kernel
  have ho : repeats.program.next o.config = .choice 2 p := by
    obtain ⟨⟨n, k⟩, hk, rfl⟩ := Option.map_eq_some_iff.mp hfirst.1
    exact (next_of_choiceAt? hk).1
  have hl : ∀ a < 2, repeats.program.Reaches (l a) := fun a ha =>
    Relation.ReflTransGen.tail (onward_forward _ _ _) (.choose ho a (by omega))
  have hsame : (l 0).config = (l 1).config := by
    obtain ⟨r, hr, hcount⟩ := step_eq_choice repeats ho
    rw [hr] at hvalues
    obtain ⟨v, vs, hv, hfalse, hvs⟩ := List.map_eq_cons_iff.mp hvalues
    obtain ⟨v', rest, rfl, hfalse', -⟩ := List.map_eq_cons_iff.mp hvs
    exact reply_eq_of_values repeats hr hcount (by rw [hv]; rfl) (by rw [hv]; rfl)
      ((Value.eq_of_boolean? hfalse).trans (Value.eq_of_boolean? hfalse').symm)
  have hm : Relation.ReflTransGen repeats.program.Onward (l 0) m := onward_forward _ _ _
  obtain ⟨m', hm', hconfig, hframe, as, hc, hc'⟩ := exists_abreast hm
    (⟨hsame, rfl, [], (List.append_nil _).symm, (List.append_nil _).symm⟩ :
      Place.Abreast (l 0) (l 1) (l 0) (l 1))
  obtain ⟨⟨n, k⟩, hk, rfl⟩ := Option.map_eq_some_iff.mp hsecond.1
  have hk' : repeats.program.choiceAt? m' = some (2, k) := by
    rw [← hk, choiceAt?, choiceAt?, hconfig, hframe]
  have hchoices : ∀ a, (l a).choices = [a] := fun a => by simp [l, Place.choose, hfirst.2]
  obtain rfl : as = [] := by simpa [hsecond.2, hchoices] using hc
  refine ⟨m, m', k, (hl 0 (by omega)).trans hm, (hl 1 (by omega)).trans hm', hsecond.2, ?_,
    at_of_choiceAt? hk (by decide), at_of_choiceAt? hk' (by decide), hconfig, hframe⟩
  simpa [hchoices] using hc'

/-- Equal fingerprints at two boundaries are those of one process, provided that the processes wait
there in the same frame and differ at most in what fingerprints show.

**Proof sketch.** The fingerprint shows all that may differ. -/
lemma eq_of_fingerprint (source : CodeProgram) {R R' : Place Process → Bool → Prop}
    {l l' : Place Process} {b b' : Boundary} {k : List Frozen.Mark}
    (hb : source.program.At R l b (.ok k)) (hb' : source.program.At R' l' b' (.ok k))
    (hf : source.program.frameAt l = source.program.frameAt l')
    (hp : Process.Alike source ((source.program.waiting l).scene.programFrames
      (source.program.frameAt l) source.file) (source.program.waiting l)
      (source.program.waiting l')) :
    b = b' ∧ source.program.waiting l = source.program.waiting l' := by
  obtain ⟨hscene, htasks, hrest⟩ := hp
  obtain ⟨i, hk⟩ := hb.exists_fingerprint
  obtain ⟨i', hk'⟩ := hb'.exists_fingerprint
  generalize source.program.waiting l = p at *
  generalize source.program.waiting l' = p' at *
  obtain ⟨hmade, hkey⟩ := Frozen.keyOrFault_eq_ok hk.symm
  obtain ⟨hmade', hkey'⟩ := Frozen.keyOrFault_eq_ok hk'.symm
  have hmodule : p'.module = p.module := by rw [hrest]
  rw [← hf, hmodule, ← hscene.programFrames_eq] at hmade' hkey'
  obtain ⟨heq, hboundary⟩ :=
    hscene.eq_of_fingerprint hmade hmade' (Frozen.key_of_keyIn (hkey.trans hkey'.symm))
  refine ⟨Boundary.eq_of_key hboundary, ?_⟩
  rw [← heq] at htasks hrest
  have htask : p.tasks = p'.tasks := List.forall₂_eq_eq_eq ▸ htasks.imp fun _ _ => Task.Alike.eq
  rw [hrest, ← htask]

/-- Equal fingerprints at two boundaries make equal futures, provided that the processes wait there
in the same frame and differ at most in what fingerprints show: plain values of variables, and the
places where functions stand. Alternatives that lead from one of the boundaries to the end of the
program lead from the other one to its end, and the variables of the module are the same then, as is
all else.

**Proof sketch.** The fingerprint shows all that may differ, so the processes are equal. -/
theorem same_future_of_fingerprint (source : CodeProgram) {R R' : Place Process → Bool → Prop}
    {l l' : Place Process} {b b' : Boundary} {k : List Frozen.Mark}
    (hb : source.program.At R l b (.ok k)) (hb' : source.program.At R' l' b' (.ok k))
    (hf : source.program.frameAt l = source.program.frameAt l')
    (hp : Process.Alike source ((source.program.waiting l).scene.programFrames
      (source.program.frameAt l) source.file) (source.program.waiting l)
      (source.program.waiting l')) :
    b = b' ∧ ∀ as q, source.program.Finishes l as q ↔ source.program.Finishes l' as q := by
  obtain ⟨rfl, hq⟩ := source.eq_of_fingerprint hb hb' hf hp
  exact ⟨rfl, finishes_iff hb hb' hq hf⟩

/-- After each of two outcomes of the first choice, which are the same value, the same lies ahead of
the second one. -/
theorem same_future_repeats : ∃ (l l' : Place Process) (k : List Frozen.Mark),
    repeats.program.Reaches l ∧ repeats.program.Reaches l' ∧ l.choices = [0] ∧ l'.choices = [1] ∧
      repeats.program.At (fun _ _ => False) l (.choice 2) (.ok k) ∧
        repeats.program.At (fun _ _ => False) l' (.choice 2) (.ok k) ∧
          ∀ as q, repeats.program.Finishes l as q ↔ repeats.program.Finishes l' as q := by
  obtain ⟨l, l', k, hl, hl', hc, hc', hb, hb', hconfig, hframe⟩ := exists_repeats
  refine ⟨l, l', k, hl, hl', hc, hc', hb, hb', ?_⟩
  refine (same_future_of_fingerprint repeats hb hb' ?_ ?_).2
  · simp only [frameAt, hconfig, hframe]
  · simp only [waiting, hconfig]
    exact .refl _ _ _

/-- Fingerprints tell the states of a program whose processes, at boundaries with equal fingerprints,
wait in the same frame and differ at most in what fingerprints show. A search finds all ends of such
a program then, `Exploration.ends_found`, and its listeners change none of them,
`Exploration.same_ends`. -/
theorem telling_of_alike (source : CodeProgram) {R : Place Process → Bool → Prop}
    (h : ∀ {l l' b b' k}, source.program.Reaches l → source.program.At R l b (.ok k) →
      source.program.Reaches l' → source.program.At R l' b' (.ok k) →
        source.program.frameAt l = source.program.frameAt l' ∧
        Process.Alike source ((source.program.waiting l).scene.programFrames
          (source.program.frameAt l) source.file) (source.program.waiting l)
          (source.program.waiting l')) :
    source.program.Telling R := by
  intro l l' b b' k hl hb hl' hb'
  obtain ⟨hf, hp⟩ := h hl hb hl' hb'
  obtain ⟨heq, hq⟩ := source.eq_of_fingerprint hb hb' hf hp
  exact ⟨heq, hq, hf⟩

/-- Equal fingerprints do not make equal futures, not even in a program with integer variables only:
after each of the two outcomes of the first choice the second one has the same fingerprint, but the
same alternative leads to different values of `x`. -/
theorem fingerprint_ambiguous : ¬∀ (l l' : Place Process) (b : Boundary) (k : List Frozen.Mark),
    tosses.program.Reaches l → tosses.program.Reaches l' →
      tosses.program.At (fun _ _ => False) l b (.ok k) →
        tosses.program.At (fun _ _ => False) l' b (.ok k) →
        ∀ (as : List Nat) (m m' : Place Process),
          Relation.ReflTransGen tosses.program.Onward l m →
            Relation.ReflTransGen tosses.program.Onward l' m' →
              m.choices = l.choices ++ as → m'.choices = l'.choices ++ as →
                tosses.program.hasEnded m = true → tosses.program.hasEnded m' = true →
                  m.config.moduleVariables = m'.config.moduleVariables := by
  intro h
  -- the second choice after each outcome of the first one, and the end after both
  let l (a : Nat) : Place Process := tosses.program.forward [a] 60 (tosses.program.startPlace 0)
  let m (a : Nat) : Place Process := tosses.program.forward [a, 1] 30 (l a)
  have hkey : (tosses.program.choiceAt? (l 0)).map Prod.fst = some 2 ∧
      tosses.program.choiceAt? (l 0) = tosses.program.choiceAt? (l 1) := by decide +kernel
  have hend : (m 0).choices = (l 0).choices ++ [1] ∧ (m 1).choices = (l 1).choices ++ [1] ∧
      tosses.program.hasEnded (m 0) = true ∧ tosses.program.hasEnded (m 1) = true := by
    decide +kernel
  have hsum : ((m 0).config.moduleVariables.get? "x").bind Value.integer? = some 1 ∧
      ((m 1).config.moduleVariables.get? "x").bind Value.integer? = some 2 := by decide +kernel
  obtain ⟨hcount, hsame⟩ := hkey
  obtain ⟨⟨n, k⟩, hl, rfl⟩ := Option.map_eq_some_iff.mp hcount
  obtain ⟨hm, hm', he, he'⟩ := hend
  have heq := h (l 0) (l 1) (.choice 2) k (onward_forward _ _ _) (onward_forward _ _ _)
    (at_of_choiceAt? hl (by decide)) (at_of_choiceAt? (hsame ▸ hl) (by decide)) [1] (m 0) (m 1)
    (onward_forward _ _ _) (onward_forward _ _ _) hm hm' he he'
  rw [heq, hsum.2] at hsum
  simp at hsum

end CodeProgram

end StateAtlas
