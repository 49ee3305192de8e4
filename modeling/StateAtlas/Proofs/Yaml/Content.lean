import Mathlib.Tactic.Lemma
import StateAtlas.Yaml.Content

set_option autoImplicit false

/-!
# What can be wrong with a document

A document that cannot be read is malformed, or a scalar in it has no value. The second is never
the fault of the configuration in the sense of its own message: it is one of nine causes, all of
them raised where the text of a scalar, or an escaped character in it, is turned into a datum.

## Main definitions

* `StateAtlas.Fault.OfScalar` — the causes for which a scalar has no value.
* `StateAtlas.NodeReader.Yields` — what is made of tokens, by its faults and the reader after it.

## Main results

* `StateAtlas.Datum.ofScalar_ofDocument` — no other cause comes out of a document.

## Design

Faults are raised in two of the functions that read characters and in those that turn scalars into
data. All others pass on what they got, so that each has one lemma, which says so and is tagged for
the next one. The functions that make a tree of tokens hand on the fault that ended the tokens: for
them the lemma speaks of the reader, too.
-/

namespace StateAtlas

/-- The causes for which a scalar has no value. -/
inductive Fault.OfScalar : Fault → Prop where
  | tooLong (digits : Nat) : OfScalar (.integerTextTooLong digits)
  | numeral (base : Nat) (text : String) : OfScalar (.notNumeral base text)
  | real (text : String) : OfScalar (.notReal text)
  | truth (text : String) : OfScalar (.notTruthValue text)
  | number : OfScalar .emptyNumber
  | timestamp : OfScalar .notTimestamp
  | calendar (fault : CalendarFault) : OfScalar (.calendar fault)
  | character : OfScalar .notCharacter
  | code : OfScalar .codeTooLarge

variable {α β : Type} {f : Fault}

/-- What is made of a result has its faults. -/
lemma DocumentFault.eq_error_of_map {g : α → β} {x : Except DocumentFault α} {e : DocumentFault}
    (h : x.map g = .error e) : x = .error e := by
  cases x with
  | ok => cases h
  | error e => simpa [Except.map] using h

grind_pattern DocumentFault.eq_error_of_map => Except.map g x, (Except.error e : Except _ β)

/-- The faults of a choice are those of its two sides. -/
lemma DocumentFault.ofScalar_ite {p : Prop} [Decidable p] {x y : Except DocumentFault α}
    (hx : x = .error (.content f) → f.OfScalar) (hy : y = .error (.content f) → f.OfScalar) :
    (if p then x else y) = .error (.content f) → f.OfScalar := by
  split
  · exact hx
  · exact hy

/-! ### Characters -/

namespace Cursor

variable {c : Cursor} {n : Nat}

@[grind →]
lemma ofScalar_characterOf (h : characterOf n = .error (.content f)) : f.OfScalar := by
  rw [characterOf] at h
  split at h
  · cases h
  · split at h
    · cases h
      exact .character
    · cases h
      exact .code

@[grind →]
lemma ofScalar_quotedLines (h : quotedLines n c = .error (.content f)) : f.OfScalar := by
  induction n generalizing c with
  | zero => cases h
  | succ n ih => grind [quotedLines]

@[grind →]
lemma ofScalar_escape (h : c.escape = .error (.content f)) : f.OfScalar := by
  grind [escape]

@[grind →]
lemma ofScalar_quotedWord {double : Bool} (h : quotedWord double n c = .error (.content f)) :
    f.OfScalar := by
  induction n generalizing c with
  | zero => cases h
  | succ n ih => grind [quotedWord]

@[grind →]
lemma ofScalar_quotedGap (h : c.quotedGap = .error (.content f)) : f.OfScalar := by
  grind [quotedGap]

@[grind →]
lemma ofScalar_quotedRest {double : Bool} (h : quotedRest double n c = .error (.content f)) :
    f.OfScalar := by
  induction n generalizing c with
  | zero => cases h
  | succ n ih => grind [quotedRest]

@[grind →]
lemma ofScalar_quoted (h : c.quoted = .error (.content f)) : f.OfScalar := by
  grind [quoted]

@[grind →]
lemma ofScalar_nonEmptyName (h : c.nonEmptyName = .error (.content f)) : f.OfScalar := by
  grind [nonEmptyName]

@[grind →]
lemma ofScalar_escapedBytes (h : escapedBytes n c = .error (.content f)) : f.OfScalar := by
  induction n generalizing c with
  | zero => cases h
  | succ n ih => grind [escapedBytes]

@[grind →]
lemma ofScalar_tagPieces (h : tagPieces n c = .error (.content f)) : f.OfScalar := by
  induction n generalizing c with
  | zero => cases h
  | succ n ih => grind [tagPieces]

@[grind →]
lemma ofScalar_tagSuffix (h : c.tagSuffix = .error (.content f)) : f.OfScalar := by
  grind [tagSuffix]

@[grind →]
lemma ofScalar_tagHandle (h : c.tagHandle = .error (.content f)) : f.OfScalar := by
  grind [tagHandle]

@[grind →]
lemma ofScalar_tagBody (h : c.tagBody = .error (.content f)) : f.OfScalar := by
  grind [tagBody]

@[grind →]
lemma ofScalar_tag (h : c.tag = .error (.content f)) : f.OfScalar := by
  grind [tag]

@[grind →]
lemma ofScalar_anchorName (h : c.anchorName = .error (.content f)) : f.OfScalar := by
  rw [anchorName] at h
  split at h
  · grind
  · split at h <;> cases h

@[grind →]
lemma ofScalar_versionNumber (h : c.versionNumber = .error (.content f)) : f.OfScalar := by
  grind [versionNumber]

@[grind →]
lemma ofScalar_version (h : c.version = .error (.content f)) : f.OfScalar := by
  grind [version]

@[grind →]
lemma ofScalar_handleMeaning (h : c.handleMeaning = .error (.content f)) : f.OfScalar := by
  grind [handleMeaning]

@[grind →]
lemma ofScalar_emptyLine (h : c.emptyLine = .error (.content f)) : f.OfScalar := by
  grind [emptyLine]

@[grind →]
lemma ofScalar_directive (h : c.directive = .error (.content f)) : f.OfScalar := by
  rw [directive] at h
  repeat' first | split at h | grind

@[grind →]
lemma ofScalar_blockHeader (h : c.blockHeader = .error (.content f)) : f.OfScalar := by
  simp only [blockHeader] at h
  repeat' first | split at h | grind

@[grind →]
lemma ofScalar_block {parent : Int} (h : c.block parent = .error (.content f)) : f.OfScalar := by
  grind [block]

end Cursor

/-! ### Tokens -/

namespace Layout

variable {x : Layout} {t : Token}

@[grind →]
lemma ofScalar_dropKey (h : x.dropKey = .error (.content f)) : f.OfScalar := by
  grind [dropKey]

@[grind →]
lemma ofScalar_noteKey (h : x.noteKey = .error (.content f)) : f.OfScalar := by
  grind [noteKey]

@[grind →]
lemma ofScalar_dropStaleKeys (h : x.dropStaleKeys = .error (.content f)) : f.OfScalar := by
  grind [dropStaleKeys]

@[grind →]
lemma ofScalar_leaveBlocks (h : x.leaveBlocks = .error (.content f)) : f.OfScalar := by
  grind [leaveBlocks]

@[grind →]
lemma ofScalar_finish (h : x.finish = .error (.content f)) : f.OfScalar := by
  grind [finish]

/-- A token that may begin a key has the faults of what reads it. -/
lemma ofScalar_item {read : Cursor → Reading Token}
    (hread : ∀ c, read c = .error (.content f) → f.OfScalar)
    (h : x.item read = .error (.content f)) : f.OfScalar := by
  grind [item]

@[grind →]
lemma ofScalar_tag (h : x.item Cursor.tag = .error (.content f)) : f.OfScalar :=
  ofScalar_item (fun _ => Cursor.ofScalar_tag) h

@[grind →]
lemma ofScalar_quoted (h : x.item Cursor.quoted = .error (.content f)) : f.OfScalar :=
  ofScalar_item (fun _ => Cursor.ofScalar_quoted) h

@[grind →]
lemma ofScalar_name {kind : String → Token} (h : x.name kind = .error (.content f)) :
    f.OfScalar :=
  ofScalar_item (fun _ hc => Cursor.ofScalar_anchorName (DocumentFault.eq_error_of_map hc)) h

@[grind →]
lemma ofScalar_plain (h : x.plain = .error (.content f)) : f.OfScalar := by
  grind [plain]

@[grind →]
lemma ofScalar_block (h : x.block = .error (.content f)) : f.OfScalar := by
  grind [block]

@[grind →]
lemma ofScalar_openFlow (h : x.openFlow t = .error (.content f)) : f.OfScalar := by
  grind [openFlow]

@[grind →]
lemma ofScalar_closeFlow (h : x.closeFlow t = .error (.content f)) : f.OfScalar := by
  grind [closeFlow]

@[grind →]
lemma ofScalar_separator {allowsKey : Bool} (h : x.separator t allowsKey = .error (.content f)) :
    f.OfScalar := by
  grind [separator]

@[grind →]
lemma ofScalar_opener {opening : Token} {allowsKey : Bool}
    (h : x.opener opening t allowsKey = .error (.content f)) : f.OfScalar := by
  grind [opener]

@[grind →]
lemma ofScalar_value (h : x.value = .error (.content f)) : f.OfScalar := by
  grind [value]

@[grind →]
lemma ofScalar_documentMark (h : x.documentMark t = .error (.content f)) : f.OfScalar := by
  grind [documentMark]

@[grind →]
lemma ofScalar_token (h : x.token = .error (.content f)) : f.OfScalar := by
  revert h
  simp only [token]
  -- One choice after the other; what is chosen has its own lemma.
  repeat' refine DocumentFault.ofScalar_ite ?_ ?_
  all_goals grind

lemma ofScalar_next (h : x.next = .error (.content f)) : f.OfScalar := by
  unfold next at h
  grind

/-- One token more. -/
lemma run_succ (n : Nat) (x : Layout) : run (n + 1) x =
    if x.isDone then (x.tokens.toList, none)
    else
      match x.next with
      | .ok x => run n x
      | .error e => (x.tokens.toList, some e) := by
  -- The equations of `run` are derived by evaluating `next`, which takes long.
  delta run
  exact rfl

lemma ofScalar_run {n : Nat} (h : (run n x).2 = some (.content f)) : f.OfScalar := by
  induction n generalizing x with
  | zero => cases h
  | succ n ih =>
    rw [run_succ] at h
    split at h
    · cases h
    · split at h
      · exact ih h
      · rename_i hnext
        exact ofScalar_next (hnext.trans (congrArg _ (Option.some.inj h)))

end Layout

/-! ### Trees -/

namespace NodeReader

/-- What ended the tokens of a reader is the form of the document, or a scalar. -/
def Sound (r : NodeReader) : Prop := ∀ f, r.fault = some (.content f) → f.OfScalar

/-- What is made of tokens fails for the form of the document or for a scalar, and leaves the rest
to a reader of which `P` holds. -/
def Yields (x : Except DocumentFault α) (P : α → Prop) : Prop :=
  (∀ f, x = .error (.content f) → f.OfScalar) ∧ ∀ a, x = .ok a → P a

/-- The reader after something made of tokens is sound. -/
def Leaves (a : α × NodeReader) : Prop := a.2.Sound

variable {r r' : NodeReader} {P : α → Prop} {Q : β → Prop}

/-- Soundness depends on the fault alone. -/
lemma Sound.of_eq (h : r.Sound) (hfault : r'.fault = r.fault) : r'.Sound :=
  fun f hf => h f (hfault ▸ hf)

lemma Sound.skip (h : r.Sound) : r.skip.Sound := h.of_eq rfl

lemma Sound.note (h : r.Sound) (anchor : Option String) (n : Node) : (r.note anchor n).Sound := by
  refine h.of_eq ?_
  unfold NodeReader.note
  split <;> rfl

lemma yields_ok {a : α} (h : P a) : Yields (.ok a) P :=
  ⟨fun _ hf => (by cases hf), fun _ ha => Except.ok.inj ha ▸ h⟩

lemma yields_malformed : Yields (.error .malformed) P :=
  ⟨fun _ hf => (by cases hf), fun _ ha => (by cases ha)⟩

/-- A fault that is handed on. -/
lemma Yields.error {x : Except DocumentFault α} {e : DocumentFault} (h : Yields x P)
    (hx : x = .error e) : Yields (.error e) Q :=
  ⟨fun f hf => h.1 f (hx.trans (congrArg _ (Except.error.inj hf))), fun _ ha => (by cases ha)⟩

lemma Yields.map {x : Except DocumentFault α} {g : α → β} (h : Yields x P)
    (hg : ∀ a, P a → Q (g a)) : Yields (x.map g) Q := by
  cases x with
  | error e => exact h.error rfl
  | ok a => exact yields_ok (hg a (h.2 a rfl))

lemma Sound.misplaced (h : r.Sound) : Yields (.error r.misplaced) P := by
  refine ⟨fun f hf => ?_, fun _ ha => (by cases ha)⟩
  have hf := Except.error.inj hf
  rw [NodeReader.misplaced] at hf
  split at hf
  · cases hr : r.fault with
    | none => simp [hr] at hf
    | some e => exact h f (by simpa [hr] using hf)
  · cases hf

lemma Sound.expect (h : r.Sound) (t : Token) : Yields (r.expect t) Sound := by
  rw [NodeReader.expect]
  split
  · exact yields_ok h.skip
  · exact h.misplaced

lemma yields_expand (handle : Option String) (suffix : String) :
    Yields (r.expand handle suffix) fun _ => True := by
  unfold expand
  repeat' split
  · exact yields_ok trivial
  · exact yields_ok trivial
  · exact yields_malformed

lemma Sound.properties (h : r.Sound) : Yields r.properties Leaves := by
  simp only [NodeReader.properties]
  split
  · exact (yields_expand _ _).map fun _ _ => h.of_eq rfl
  · exact (yields_expand _ _).map fun _ _ => h.of_eq rfl
  · exact yields_ok (h.of_eq rfl)
  · exact (yields_expand _ _).map fun _ _ => h.of_eq rfl
  · exact yields_ok h

end NodeReader

namespace Node

open NodeReader

/-- With some fuel, what is read by a sound reader leaves the rest to a sound reader. -/
structure Faithful (fuel : Nat) : Prop where
  node : ∀ {r : NodeReader} (inBlock unindented : Bool), r.Sound →
    Yields (parse fuel inBlock unindented r) Leaves
  body : ∀ {r : NodeReader} (inBlock unindented : Bool) (p : Properties), r.Sound →
    Yields (parseContent fuel inBlock unindented p r) Leaves
  unlessAt : ∀ {r : NodeReader} (ends : List Token) (inBlock unindented : Bool), r.Sound →
    Yields (parseUnless fuel ends inBlock unindented r) Leaves
  value : ∀ {r : NodeReader} (ends : List Token) (inBlock unindented : Bool), r.Sound →
    Yields (parseValue fuel ends inBlock unindented r) Leaves
  blockSequence : ∀ {r : NodeReader}, r.Sound → Yields (parseBlockSequence fuel r) Leaves
  unindented : ∀ {r : NodeReader}, r.Sound → Yields (parseUnindented fuel r) Leaves
  blockMapping : ∀ {r : NodeReader}, r.Sound → Yields (parseBlockMapping fuel r) Leaves
  flowSequence : ∀ {r : NodeReader} (isFirst : Bool), r.Sound →
    Yields (parseFlowSequence fuel isFirst r) Leaves
  flowMapping : ∀ {r : NodeReader} (isFirst : Bool), r.Sound →
    Yields (parseFlowMapping fuel isFirst r) Leaves

variable {fuel : Nat} {r : NodeReader}

namespace Faithful

lemma zero : Faithful 0 := by
  constructor <;> intros <;> exact yields_malformed

lemma node_succ (ih : Faithful fuel) (inBlock unindented : Bool) (h : r.Sound) :
    Yields (parse (fuel + 1) inBlock unindented r) Leaves := by
  unfold parse
  split
  · split
    · exact yields_ok (h.of_eq rfl)
    · exact yields_malformed
  · split
    · exact h.properties.error ‹_›
    · exact ih.body _ _ _ (h.properties.2 (_, _) ‹_›)

lemma body_succ (ih : Faithful fuel) (inBlock unindented : Bool) (p : Properties) (h : r.Sound) :
    Yields (parseContent (fuel + 1) inBlock unindented p r) Leaves := by
  unfold parseContent
  split
  · exact yields_malformed
  · simp only
    split
    · split
      · exact (ih.unindented (h.note _ _)).map fun _ hr => Sound.note hr _ _
      · split
        · exact yields_ok (h.note _ _)
        · exact yields_malformed
    · exact yields_ok (h.skip.note _ _)
    · exact (ih.flowSequence _ (h.skip.note _ _)).map fun _ hr => Sound.note hr _ _
    · exact (ih.flowMapping _ (h.skip.note _ _)).map fun _ hr => Sound.note hr _ _
    · exact (ih.blockSequence (h.skip.note _ _)).map fun _ hr => Sound.note hr _ _
    · exact (ih.blockMapping (h.skip.note _ _)).map fun _ hr => Sound.note hr _ _
    · split
      · exact h.misplaced
      · split
        · exact yields_ok (h.note _ _)
        · exact yields_malformed

lemma unlessAt_succ (ih : Faithful fuel) (ends : List Token) (inBlock unindented : Bool)
    (h : r.Sound) : Yields (parseUnless (fuel + 1) ends inBlock unindented r) Leaves := by
  unfold parseUnless
  split
  · exact yields_ok h
  · exact ih.node _ _ h

lemma value_succ (ih : Faithful fuel) (ends : List Token) (inBlock unindented : Bool)
    (h : r.Sound) : Yields (parseValue (fuel + 1) ends inBlock unindented r) Leaves := by
  unfold parseValue
  split
  · exact ih.unlessAt _ _ _ h.skip
  · exact yields_ok h

lemma blockSequence_succ (ih : Faithful fuel) (h : r.Sound) :
    Yields (parseBlockSequence (fuel + 1) r) Leaves := by
  unfold parseBlockSequence
  split
  · have hitem := ih.unlessAt [.blockEntry, .blockEnd] true false h.skip
    split
    · exact hitem.error ‹_›
    · exact (ih.blockSequence (hitem.2 (_, _) ‹_›)).map fun _ hr => hr
  · exact (h.expect _).map fun _ hr => hr

lemma unindented_succ (ih : Faithful fuel) (h : r.Sound) :
    Yields (parseUnindented (fuel + 1) r) Leaves := by
  unfold parseUnindented
  split
  · have hitem := ih.unlessAt (.blockEntry :: keyEnds) true false h.skip
    split
    · exact hitem.error ‹_›
    · exact (ih.unindented (hitem.2 (_, _) ‹_›)).map fun _ hr => hr
  · exact yields_ok h

lemma blockMapping_succ (ih : Faithful fuel) (h : r.Sound) :
    Yields (parseBlockMapping (fuel + 1) r) Leaves := by
  unfold parseBlockMapping
  split
  · have hkey := ih.unlessAt keyEnds true true h.skip
    split
    · exact hkey.error ‹_›
    · have hvalue := ih.value keyEnds true true (hkey.2 (_, _) ‹_›)
      split
      · exact hvalue.error ‹_›
      · exact (ih.blockMapping (hvalue.2 (_, _) ‹_›)).map fun _ hr => hr
  · exact (h.expect _).map fun _ hr => hr

/-- The comma before an entry that is not the first one. -/
lemma yields_comma (h : r.Sound) (isFirst : Bool) :
    Yields (if isFirst then .ok r else r.expect .flowEntry) Sound := by
  split
  · exact yields_ok h
  · exact h.expect _

lemma flowSequence_succ (ih : Faithful fuel) (isFirst : Bool) (h : r.Sound) :
    Yields (parseFlowSequence (fuel + 1) isFirst r) Leaves := by
  unfold parseFlowSequence
  split
  · exact yields_ok h.skip
  · have hcomma := yields_comma h isFirst
    split
    · exact hcomma.error ‹_›
    · rename_i r' hr
      have hr' := hcomma.2 r' hr
      split
      · exact yields_ok hr'.skip
      · extract_lets ends item
        have hitem : Yields item Leaves := by
          simp only [item]
          split
          · have hkey := ih.unlessAt (.value :: ends) false false hr'.skip
            split
            · exact hkey.error ‹_›
            · exact (ih.value _ _ _ (hkey.2 (_, _) ‹_›)).map fun _ hr => hr
          · exact ih.node _ _ hr'
        clear_value item
        split
        · exact hitem.error rfl
        · exact (ih.flowSequence _ (hitem.2 (_, _) rfl)).map fun _ hr => hr

lemma flowMapping_succ (ih : Faithful fuel) (isFirst : Bool) (h : r.Sound) :
    Yields (parseFlowMapping (fuel + 1) isFirst r) Leaves := by
  unfold parseFlowMapping
  split
  · exact yields_ok h.skip
  · have hcomma := yields_comma h isFirst
    split
    · exact hcomma.error ‹_›
    · rename_i r' hr
      have hr' := hcomma.2 r' hr
      split
      · exact yields_ok hr'.skip
      · extract_lets ends entry
        have hentry : Yields entry Leaves := by
          simp only [entry]
          split
          · have hkey := ih.unlessAt (.value :: ends) false false hr'.skip
            split
            · exact hkey.error ‹_›
            · exact (ih.value _ _ _ (hkey.2 (_, _) ‹_›)).map fun _ hr => hr
          · exact (ih.node _ _ hr').map fun _ hr => hr
        clear_value entry
        split
        · exact hentry.error rfl
        · exact (ih.flowMapping _ (hentry.2 (_, _) rfl)).map fun _ hr => hr

end Faithful

/-- The functions that read nodes are faithful, whatever the fuel.

**Proof sketch.** Every call of a node costs one unit of fuel: the functions with some fuel are
faithful because those with less are. -/
lemma faithful : ∀ fuel, Faithful fuel
  | 0 => .zero
  | fuel + 1 =>
    have ih := faithful fuel
    { node := fun b u h => ih.node_succ b u h
      body := fun b u p h => ih.body_succ b u p h
      unlessAt := fun ends b u h => ih.unlessAt_succ ends b u h
      value := fun ends b u h => ih.value_succ ends b u h
      blockSequence := fun h => ih.blockSequence_succ h
      unindented := fun h => ih.unindented_succ h
      blockMapping := fun h => ih.blockMapping_succ h
      flowSequence := fun b h => ih.flowSequence_succ b h
      flowMapping := fun b h => ih.flowMapping_succ b h }

lemma yields_directives : ∀ (ts : List Token) (seen : Bool) (handles : List (String × String)),
    Yields (directives ts seen handles) fun _ => True := by
  intro ts seen handles
  fun_induction directives ts seen handles with
  | case1 | case3 => exact yields_malformed
  | case2 _ _ _ _ _ _ ih | case4 _ _ _ _ _ _ ih | case5 _ _ _ ih => exact ih
  | case6 => exact yields_ok trivial

lemma yields_parseMarked (h : r.Sound) : Yields (parseMarked fuel r) Leaves := by
  simp only [parseMarked]
  split
  · exact yields_ok (h.of_eq rfl)
  · split
    · exact (yields_directives _ _ _).error ‹_›
    · have hstart := fun tokens handles =>
        Sound.expect (r := { r with tokens, handles }) (h.of_eq rfl) .documentStart
      split
      · exact (hstart _ _).error ‹_›
      · have hr := (hstart _ _).2 _ ‹_›
        split
        · exact yields_ok hr
        · exact ((faithful fuel).node _ _ hr).map fun _ hr => hr

lemma yields_parseFirst (h : r.Sound) : Yields (parseFirst fuel r) Leaves := by
  unfold parseFirst
  split
  · exact yields_parseMarked h
  · exact ((faithful fuel).node _ _ h).map fun _ hr => hr

lemma ofScalar_parseDocument (h : r.Sound) (hf : parseDocument fuel r = .error (.content f)) :
    f.OfScalar := by
  have hfirst : Yields (parseFirst fuel r) Leaves := yields_parseFirst h
  unfold parseDocument at hf
  split at hf
  · exact hfirst.1 f (by rw [‹parseFirst fuel r = _›, Except.error.inj hf])
  · cases hf
  · rename_i n r' hn
    have hr' : Sound { (if r'.isAt [.documentEnd] then r'.skip else r') with anchors := [] } := by
      split
      · exact (hfirst.2 (_, _) hn).of_eq rfl
      · exact (hfirst.2 (_, _) hn).of_eq rfl
    have hlast : Yields (parseMarked fuel _) Leaves := yields_parseMarked hr'
    simp only at hf
    split at hf
    · rename_i e he
      exact hlast.1 f (he.trans (congrArg _ (Except.error.inj hf)))
    · cases hf
    · cases hf

/-- No other cause comes out of the tree of a document. -/
lemma ofScalar_ofText {s : String} (hf : ofText s = .error (.content f)) : f.OfScalar := by
  have hsound : Sound ⟨(Layout.tokensOf s).1, (Layout.tokensOf s).2, standardHandles, []⟩ :=
    fun g hg => Layout.ofScalar_run (n := s.length + 2) hg
  unfold ofText at hf
  exact ofScalar_parseDocument hsound hf

end Node

/-! ### Data -/

namespace DocumentFault

variable {e : DocumentFault}

/-- A fault of two steps is one of the first or of the second. -/
lemma exists_of_bind {x : Except DocumentFault α} {k : α → Except DocumentFault β}
    (h : x.bind k = .error e) : x = .error e ∨ ∃ a, k a = .error e := by
  cases x with
  | error e => exact .inl (congrArg _ (Except.error.inj h))
  | ok a => exact .inr ⟨a, h⟩

/-- A fault of the steps for the items of a list is one of the step for an item. -/
lemma exists_of_foldlM {g : β → α → Except DocumentFault β} {l : List α} {b : β}
    (h : l.foldlM g b = .error e) : ∃ b a, g b a = .error e := by
  induction l generalizing b with
  | nil => cases h
  | cons a l ih =>
    rw [List.foldlM_cons] at h
    obtain h | ⟨b', h⟩ := exists_of_bind h
    · exact ⟨b, a, h⟩
    · exact ih h

lemma exists_of_mapM {g : α → Except DocumentFault β} {l : List α}
    (h : l.mapM g = .error e) : ∃ a, g a = .error e := by
  induction l with
  | nil => cases h
  | cons a l ih =>
    rw [List.mapM_cons] at h
    obtain h | ⟨b, h⟩ := exists_of_bind h
    · exact ⟨a, h⟩
    · obtain h | ⟨bs, h⟩ := exists_of_bind h
      · exact ih h
      · cases h

end DocumentFault

namespace Scalar

variable {s : String} {base : Nat}

lemma eq_of_invalid {g : Fault} (h : (invalid g : Except DocumentFault α) = .error (.content f)) :
    f = g :=
  (DocumentFault.content.inj (Except.error.inj h)).symm

lemma ofScalar_plainInteger (h : plainInteger s = .error (.content f)) : f.OfScalar := by
  unfold plainInteger at h
  split at h
  · split at h
    · exact eq_of_invalid h ▸ .tooLong _
    · cases h
  · exact eq_of_invalid h ▸ .numeral _ _

lemma ofScalar_numeral (h : numeral base s = .error (.content f)) : f.OfScalar := by
  unfold numeral at h
  split at h
  · cases h
  · exact eq_of_invalid h ▸ .numeral _ _

lemma ofScalar_sixtieths {pieces : List String} (h : sixtieths pieces = .error (.content f)) :
    f.OfScalar := by
  obtain ⟨n, s, h⟩ := DocumentFault.exists_of_foldlM h
  exact ofScalar_plainInteger (DocumentFault.eq_error_of_map h)

lemma ofScalar_integer (h : integer s = .error (.content f)) : f.OfScalar := by
  unfold integer at h
  split at h
  · exact eq_of_invalid h ▸ .number
  · have h := DocumentFault.eq_error_of_map h
    split at h
    · exact eq_of_invalid h ▸ .number
    · cases h
    · exact ofScalar_numeral h
    · exact ofScalar_numeral h
    · exact ofScalar_numeral h
    · split at h
      · exact ofScalar_sixtieths h
      · exact ofScalar_plainInteger h

lemma ofScalar_real (h : real s = .error (.content f)) : f.OfScalar := by
  unfold real at h
  split at h
  · cases h
  · exact eq_of_invalid h ▸ .real _

lemma ofScalar_decimal (h : decimal s = .error (.content f)) : f.OfScalar := by
  unfold decimal at h
  simp only at h
  split at h
  · exact eq_of_invalid h ▸ .number
  · split at h
    · cases h
    · split at h
      · cases h
      · split at h
        · obtain ⟨piece, h⟩ := DocumentFault.exists_of_mapM (DocumentFault.eq_error_of_map h)
          exact ofScalar_real h
        · exact ofScalar_real (DocumentFault.eq_error_of_map h)

lemma ofScalar_truth (h : truth s = .error (.content f)) : f.OfScalar := by
  unfold truth at h
  simp only at h
  repeat' split at h
  · cases h
  · cases h
  · exact eq_of_invalid h ▸ .truth _

lemma ofScalar_timestamp (h : timestamp s = .error (.content f)) : f.OfScalar := by
  unfold timestamp at h
  simp only at h
  split at h
  · exact eq_of_invalid h ▸ .timestamp
  · split at h
    · exact eq_of_invalid h ▸ .calendar _
    · cases h

lemma ofScalar_binary (h : binary s = .error (.content f)) : f.OfScalar := by
  unfold binary at h
  repeat' split at h
  all_goals cases h

/-- The causes for which a scalar has no value are those listed. -/
lemma ofScalar_datum {tag : Tag} (h : datum tag s = .error (.content f)) : f.OfScalar := by
  unfold datum at h
  split at h
  · cases h
  · exact ofScalar_truth (DocumentFault.eq_error_of_map h)
  · exact ofScalar_integer (DocumentFault.eq_error_of_map h)
  · exact ofScalar_decimal (DocumentFault.eq_error_of_map h)
  · exact ofScalar_binary h
  · exact ofScalar_timestamp h
  · cases h
  · cases h

end Scalar

namespace Node

variable {e : DocumentFault}

mutual

/-- Merging mappings looks at no scalar. -/
lemma eq_malformed_of_merged : ∀ {entries : List (Node × Node)},
    merged entries = .error e → e = .malformed
  | entries, h => by
    rw [merged] at h
    split at h
    · cases h
    · rename_i hparts
      cases h
      exact eq_malformed_of_mergedParts hparts

lemma eq_malformed_of_mergedParts : ∀ {entries : List (Node × Node)},
    mergedParts entries = .error e → e = .malformed
  | [], h => by simp [mergedParts] at h
  | (k, v) :: rest, h => by
    rw [mergedParts] at h
    split at h
    · rename_i hv
      split at hv
      · cases h
        exact eq_malformed_of_mergedValue hv
      · cases hv
    · rename_i hrest _
      cases h
      exact eq_malformed_of_mergedParts hrest
    · cases h

lemma eq_malformed_of_mergedValue : ∀ {n : Node}, mergedValue n = .error e → e = .malformed
  | .mapping _ entries, h => by
    rw [mergedValue] at h
    exact eq_malformed_of_merged h
  | .sequence _ items, h => by
    rw [mergedValue] at h
    exact eq_malformed_of_mergedItems h
  | .enclosing true, h => by simp [mergedValue] at h
  | .enclosing false, h | .scalar .., h => by simpa [mergedValue, eq_comm] using h

lemma eq_malformed_of_mergedItems : ∀ {items : List Node},
    mergedItems items = .error e → e = .malformed
  | [], h => by simp [mergedItems] at h
  | n :: ns, h => by
    rw [mergedItems] at h
    split at h
    · rename_i hn
      cases h
      exact eq_malformed_of_mergedItem hn
    · rename_i hns _
      cases h
      exact eq_malformed_of_mergedItems hns
    · cases h

lemma eq_malformed_of_mergedItem : ∀ {n : Node}, mergedItem n = .error e → e = .malformed
  | .mapping _ entries, h => by
    rw [mergedItem] at h
    exact eq_malformed_of_merged h
  | .enclosing true, h => by simp [mergedItem] at h
  | .enclosing false, h | .scalar .., h | .sequence .., h => by
    simpa [mergedItem, eq_comm] using h

end

variable {inner : Node → Content}

lemma ofScalar_entriesBy {entries : List (Node × Node)}
    (hinner : ∀ n, inner n = .error (.content f) → f.OfScalar)
    (h : entriesBy inner entries = .error (.content f)) : f.OfScalar := by
  obtain ⟨done, ⟨k, v⟩, h⟩ := DocumentFault.exists_of_foldlM h
  simp only at h
  split at h
  · rename_i hk
    exact hinner _ (hk.trans (congrArg _ (Except.error.inj h)))
  · split at h
    · exact hinner v (DocumentFault.eq_error_of_map h)
    · cases h

lemma ofScalar_pairBy {n : Node} (hinner : ∀ n, inner n = .error (.content f) → f.OfScalar)
    (h : pairBy inner n = .error (.content f)) : f.OfScalar := by
  unfold pairBy at h
  split at h
  · split at h
    · rename_i hk
      exact hinner _ (hk.trans h)
    · rename_i hv _
      exact hinner _ (hv.trans h)
    · cases h
  · cases h

lemma ofScalar_mergedEntries {entries : List (Node × Node)}
    (hinner : ∀ n, inner n = .error (.content f) → f.OfScalar)
    (h : (merged entries).bind (entriesBy inner) = .error (.content f)) : f.OfScalar := by
  obtain h | ⟨entries, h⟩ := DocumentFault.exists_of_bind h
  · cases eq_malformed_of_merged h
  · exact ofScalar_entriesBy hinner h

lemma ofScalar_datumWithin {room : Nat} {n : Node}
    (h : datumWithin room n = .error (.content f)) : f.OfScalar := by
  induction room generalizing n with
  | zero => cases h
  | succ room ih =>
    have hinner (n : Node) : datumWithin room n = .error (.content f) → f.OfScalar := ih
    unfold datumWithin at h
    simp only at h
    split at h
    · cases h
    · exact Scalar.ofScalar_datum h
    · obtain ⟨n, h⟩ := DocumentFault.exists_of_mapM (DocumentFault.eq_error_of_map h)
      exact hinner n h
    · obtain ⟨n, h⟩ := DocumentFault.exists_of_mapM (DocumentFault.eq_error_of_map h)
      exact ofScalar_pairBy hinner h
    · obtain ⟨n, h⟩ := DocumentFault.exists_of_mapM (DocumentFault.eq_error_of_map h)
      exact ofScalar_pairBy hinner h
    · exact ofScalar_mergedEntries hinner (DocumentFault.eq_error_of_map h)
    · exact ofScalar_mergedEntries hinner (DocumentFault.eq_error_of_map h)
    · split at h
      · exact Scalar.ofScalar_datum h
      · cases h
    · cases h

end Node

/-- **What keeps a document from being read.** It is malformed, or a scalar in it has no value, for
one of the causes listed.

**Proof sketch.** The functions that read characters raise such a cause for an escaped character
alone; the tokens and the tree hand it on; the data of the tree raise the others for the texts of
scalars. -/
theorem Datum.ofScalar_ofDocument {s : String}
    (h : Datum.ofDocument s = .error (.content f)) : f.OfScalar := by
  unfold Datum.ofDocument at h
  split at h
  · rename_i hs
    exact Node.ofScalar_ofText (hs.trans (congrArg _ (Except.error.inj h)))
  · cases h
  · exact Node.ofScalar_datumWithin h

end StateAtlas
