import StateAtlas.Proofs.Config.Answer
import StateAtlas.Proofs.Config.Spelling
import StateAtlas.Proofs.Data.Bindings
import StateAtlas.Proofs.Provider.Naming
import StateAtlas.Provider.Basic

set_option autoImplicit false

/-!
# Which providers are made

A configuration that holds texts, or lists of texts, names providers and their targets. A provider is
made if its name is known and every one of its targets is a signature of the kind it watches; each of
the others is reported and left out. The signatures are given here by grammars, that say what is
joined to what, and the functions that read them by cutting and trimming accept just these texts.

## Main definitions

* `StateAtlas.Signature.Dotted`, `StateAtlas.Signature.Pattern`, `StateAtlas.Signature.Variable` — the
  grammars of signatures.
* `StateAtlas.ProviderKind.Grammar` — the grammar of the targets of a kind of provider.
* `StateAtlas.ProviderKind.Registered` — the names of a kind of provider.
* `StateAtlas.Config.Textual` — a configuration that holds texts and lists of texts.

## Main results

* `StateAtlas.FieldSpec.exists_parse_iff`, `StateAtlas.FunctionSpec.exists_parse_iff`,
  `StateAtlas.VariableSpec.exists_parse_iff` — the texts that are read as signatures.
* `StateAtlas.Provider.createAll_accepts` — one provider for each name that is accepted, and one
  report for each of the others.
-/

namespace StateAtlas

/-! ## Grammars -/

namespace Signature

/-- At least `n` identifiers joined by dots. -/
def Dotted (n : Nat) (s : String) : Prop :=
  ∃ parts : List String, n ≤ parts.length ∧ (∀ part ∈ parts, isIdentifier part = true) ∧
    s = String.intercalate "." parts

/-- One or more characters of words and wildcards. -/
def Pattern (s : String) : Prop :=
  s ≠ "" ∧ ∀ c ∈ s.toList,
    wordCharacters.contains c = true ∨ c ∈ ['.', '<', '>', '*', '?', '[', ']', '!', '-']

/-- A text of some grammar with blanks around it. -/
def Padded (of : String → Prop) (s : String) : Prop :=
  ∃ before text after : String, s = before ++ text ++ after ∧
    (∀ c ∈ before.toList, isBlank c = true) ∧ (∀ c ∈ after.toList, isBlank c = true) ∧ of text

/-- A pattern, a colon and an identifier, with blanks around both. -/
def Variable (s : String) : Prop :=
  ∃ function name : String, s = function ++ ":" ++ name ∧ Padded Pattern function ∧
    Padded (isIdentifier · = true) name

end Signature

/-- The grammar of the targets of a kind of provider; a kind without targets looks at none. -/
def ProviderKind.Grammar : ProviderKind → String → Prop
  | .initial | .final | .allDifferent => fun _ => True
  | .booleanField | .integerField => Signature.Dotted 2
  | .booleanVariable | .positiveVariable => Signature.Variable
  | .invoked | .returnedVoid | .returnedBoolean | .returnedInteger | .synchronized =>
    Signature.Pattern
  | .thrown => Signature.Dotted 1

/-! ## Names joined by dots -/

/-- Whatever cannot begin or go on in an identifier is not in one. -/
lemma notMem_of_isIdentifier {s : String} (h : isIdentifier s = true) {c : Char}
    (hs : Identifier.start.contains c = false) (hc : Identifier.continuing.contains c = false) :
    c ∉ s.toList := by
  rw [isIdentifier] at h
  split at h
  · simp at h
  · rename_i first rest hcs
    rw [Bool.and_eq_true, List.all_eq_true] at h
    rw [hcs, List.mem_cons, not_or]
    refine ⟨fun heq => ?_, fun hmem => ?_⟩
    · rw [heq, h.1] at hs
      simp at hs
    · rw [h.2 c hmem] at hc
      simp at hc

lemma dot_notMem {s : String} (h : isIdentifier s = true) : '.' ∉ s.toList :=
  notMem_of_isIdentifier h (by decide +kernel) (by decide +kernel)

namespace Signature

/-- The texts of the grammar are those whose pieces are identifiers. -/
lemma isDotted_iff {s : String} : isDotted s = true ↔ Dotted 1 s := by
  rw [isDotted, List.all_eq_true]
  constructor
  · intro h
    refine ⟨splitText '.' s, ?_, h, (intercalate_splitText rfl s).symm⟩
    simpa [splitText, Nat.one_le_iff_ne_zero] using splitChars_ne_nil '.' s.toList
  · rintro ⟨parts, hlen, h, rfl⟩
    rwa [splitText_intercalate rfl (by rintro rfl; simp at hlen) fun part hp => dot_notMem (h part hp)]

/-- There are two or more of them if there is a dot. -/
lemma dotted_two_iff {s : String} : Dotted 2 s ↔ isDotted s = true ∧ '.' ∈ s.toList := by
  rw [isDotted_iff]
  constructor
  · rintro ⟨parts, hlen, h, rfl⟩
    refine ⟨⟨parts, by omega, h, rfl⟩, ?_⟩
    obtain ⟨first, second, rest, rfl⟩ : ∃ first second rest, parts = first :: second :: rest := by
      match parts, hlen with
      | first :: second :: rest, _ => exact ⟨first, second, rest, rfl⟩
    simp [String.toList_intercalate]
  · rintro ⟨⟨parts, hlen, h, rfl⟩, hdot⟩
    refine ⟨parts, ?_, h, rfl⟩
    by_contra hone
    obtain ⟨part, rfl⟩ : ∃ part, parts = [part] := List.length_eq_one_iff.mp (by omega)
    refine dot_notMem (h part (List.mem_singleton_self part)) ?_
    simpa [String.toList_intercalate] using hdot

end Signature

/-! ## The texts that are read -/

namespace FieldSpec

open Signature

variable {text : String} {spec : FieldSpec}

/-- Fields are read from two or more identifiers joined by dots. -/
lemma exists_parse_iff : (∃ spec, parse text = .ok spec) ↔ Dotted 2 (trim text) := by
  rw [dotted_two_iff, parse]
  cases hcut : cutLast? '.' (trim text).toList with
  | none => exact iff_of_false (by simp) fun h => cutLast?_eq_none_iff.mp hcut h.2
  | some sides =>
    obtain ⟨owner, name⟩ := sides
    obtain ⟨hcs, -⟩ := cutLast?_eq_some_iff.mp hcut
    rw [and_iff_left (by simp [hcs])]
    cases owner with
    | nil =>
      -- the first piece is empty
      refine iff_of_false (by simp) ?_
      rw [isDotted, splitText, hcs, List.nil_append, splitChars, if_pos (beq_self_eq_true '.')]
      simp [isIdentifier]
    | cons c owner =>
      simp only [List.isEmpty_cons, Bool.false_eq_true, if_false]
      split <;> simp_all

/-- A field is its owner, a dot and its name. -/
lemma of_parse (h : parse text = .ok spec) : spec.signature = trim text ∧
    spec.signature = spec.owner ++ "." ++ spec.name ∧ isIdentifier spec.name = true := by
  rw [parse] at h
  split at h
  · simp at h
  · rename_i owner name hcut
    obtain ⟨hcs, hname⟩ := cutLast?_eq_some_iff.mp hcut
    split at h
    · simp at h
    · split at h
      · rename_i hdotted
        obtain rfl := Except.ok.inj h
        refine ⟨rfl, String.toList_injective (by simp [hcs]), ?_⟩
        -- the name is the last piece
        have hpieces : splitChars '.' (trim text).toList = splitChars '.' owner ++ [name] := by
          rw [hcs, splitChars_eq_splitOn, splitChars_eq_splitOn, ← splitChars_of_notMem hname,
            splitChars_eq_splitOn]
          exact List.splitOnP_append_cons owner name (beq_self_eq_true '.')
        rw [isDotted, splitText, hpieces, List.all_eq_true] at hdotted
        exact hdotted _ (List.mem_map_of_mem (List.mem_append_right _ List.mem_cons_self))
      · simp at h

end FieldSpec

namespace FunctionSpec

open Signature

variable {text : String} {spec : FunctionSpec}

lemma isPatternChar_iff {c : Char} : isPatternChar c = true ↔
    wordCharacters.contains c = true ∨ c ∈ ['.', '<', '>', '*', '?', '[', ']', '!', '-'] := by
  rw [isPatternChar, Bool.or_eq_true, List.contains_iff_mem]

/-- Functions are read from patterns. -/
lemma exists_parse_iff : (∃ spec, parse text = .ok spec) ↔ Pattern (trim text) := by
  rw [parse, Pattern]
  simp only [← isPatternChar_iff]
  split
  · rename_i h
    refine iff_of_false (by simp) fun ⟨hne, hall⟩ => ?_
    rw [Bool.or_eq_true, String.isEmpty_iff, Bool.not_eq_true', List.all_eq_false] at h
    rcases h with h | ⟨c, hc, h⟩
    · exact hne h
    · exact h (hall c hc)
  · rename_i h
    rw [Bool.or_eq_true, not_or, String.isEmpty_iff, Bool.not_eq_true', Bool.not_eq_false,
      List.all_eq_true] at h
    exact iff_of_true ⟨_, rfl⟩ h

/-- A function is the pattern it has been read from. -/
lemma of_parse (h : parse text = .ok spec) : spec.pattern = trim text := by
  rw [parse] at h
  split at h
  · simp at h
  · rw [← Except.ok.inj h]

end FunctionSpec

namespace Signature

/-- Trimming takes away just the blanks around a text. -/
lemma padded_iff {of : String → Prop} (hof : ∀ text, of text → ∀ c ∈ text.toList, isBlank c = false)
    {s : String} : Padded of s ↔ of (trim s) := by
  constructor
  · rintro ⟨before, text, after, rfl, hbefore, hafter, h⟩
    rwa [trim, String.toList_append, String.toList_append,
      trimChars_surrounded hbefore hafter (hof text h), String.ofList_toList]
  · intro h
    obtain ⟨before, after, hs, hbefore, hafter⟩ := exists_trimChars s.toList
    refine ⟨.ofList before, trim s, .ofList after, String.toList_injective ?_, by simpa using hbefore,
      by simpa using hafter, h⟩
    simpa [trim] using hs

lemma not_isBlank_of_pattern {s : String} (h : Pattern s) : ∀ c ∈ s.toList, isBlank c = false := by
  intro c hc
  rcases h.2 c hc with hword | hmark
  · exact not_isBlank_of_word hword
  · have marks : (['.', '<', '>', '*', '?', '[', ']', '!', '-'].all fun c => !isBlank c) = true := by
      decide +kernel
    simpa using List.all_eq_true.mp marks c hmark

/-- There is no colon in a pattern with blanks around it. -/
lemma colon_notMem {s : String} (h : Padded Pattern s) : ':' ∉ s.toList := by
  obtain ⟨before, text, after, rfl, hbefore, hafter, -, htext⟩ := h
  have hblank : isBlank ':' = false := by decide +kernel
  simp only [String.toList_append, List.mem_append, not_or]
  refine ⟨⟨fun hc => ?_, fun hc => ?_⟩, fun hc => ?_⟩
  · simp [hbefore _ hc] at hblank
  · have hcolon : ¬(wordCharacters.contains ':' = true ∨
        ':' ∈ ['.', '<', '>', '*', '?', '[', ']', '!', '-']) := by decide +kernel
    exact hcolon (htext _ hc)
  · simp [hafter _ hc] at hblank

end Signature

namespace VariableSpec

open Signature

variable {text : String} {spec : VariableSpec}

/-- Variables are read from a pattern, a colon and an identifier. -/
lemma exists_parse_iff : (∃ spec, parse text = .ok spec) ↔ Signature.Variable (trim text) := by
  rw [parse]
  cases hcut : cutFirst? ':' (trim text).toList with
  | none =>
    refine iff_of_false (by simp) ?_
    rintro ⟨function, name, heq, -⟩
    exact cutFirst?_eq_none_iff.mp hcut (by simp [heq])
  | some sides =>
    obtain ⟨function, name⟩ := sides
    obtain ⟨hcs, hfirst⟩ := cutFirst?_eq_some_iff.mp hcut
    have hsides : Signature.Variable (trim text) ↔
        Padded Pattern (.ofList function) ∧ Padded (isIdentifier · = true) (.ofList name) := by
      constructor
      · rintro ⟨function', name', heq, hfunction, hname⟩
        -- the only colon is the first one
        have hcut' : cutFirst? ':' (trim text).toList = some (function'.toList, name'.toList) :=
          cutFirst?_eq_some_iff.mpr ⟨by simp [heq], colon_notMem hfunction⟩
        obtain ⟨rfl, rfl⟩ := Prod.mk.inj (Option.some.inj (hcut.symm.trans hcut'))
        exact ⟨by simpa using hfunction, by simpa using hname⟩
      · exact fun h => ⟨_, _, String.toList_injective (by simp [hcs]), h⟩
    rw [hsides, padded_iff fun _ => not_isBlank_of_pattern,
      padded_iff fun _ => not_isBlank_of_isIdentifier, ← FunctionSpec.exists_parse_iff]
    simp only
    split
    · rename_i hname
      rw [and_iff_left hname]
      cases FunctionSpec.parse (String.ofList function) <;> simp
    · rename_i hname
      exact iff_of_false (by simp) fun h => hname h.2

end VariableSpec

/-! ## Names of providers -/

namespace ProviderKind

variable {k : ProviderKind} {name : String}

/-- A kind of provider has a name, by itself or as the last part of a dotted name. -/
def Registered (name : String) (k : ProviderKind) : Prop :=
  (name, k) ∈ named ∨ ∃ qualifier last, name = qualifier ++ "." ++ last ∧ '.' ∉ last.toList ∧
    (last, k) ∈ named

/-- A kind is found under just the names it is registered under. -/
lemma ofName_eq_ok_iff : ofName name = .ok k ↔ Registered name k := by
  have hnodup : (named.map Prod.fst).Nodup := by decide +kernel
  have hplain : ∀ e ∈ named, '.' ∉ e.1.toList := by decide +kernel
  rw [ofName, Registered]
  cases hcut : cutLast? '.' name.toList with
  | none =>
    -- a name without dots is its own last part
    have hdot := cutLast?_eq_none_iff.mp hcut
    have hlast : lastPiece '.' name = name := by rw [lastPiece, hcut]
    rw [hlast, or_iff_left (by rintro ⟨qualifier, last, rfl, -⟩; simp at hdot),
      ← Bindings.find?_eq_some_iff hnodup]
    cases Bindings.find? name named <;> simp
  | some sides =>
    obtain ⟨qualifier, last⟩ := sides
    obtain ⟨hcs, hdot⟩ := cutLast?_eq_some_iff.mp hcut
    have hlast : lastPiece '.' name = .ofList last := by rw [lastPiece, hcut]
    have hunknown : ∀ k, (name, k) ∉ named := fun k h => hplain _ h (by simp [hcs])
    have hfind : Bindings.find? name named = none :=
      Option.eq_none_iff_forall_ne_some.mpr fun k h =>
        hunknown k ((Bindings.find?_eq_some_iff hnodup).mp h)
    have hqualified : (∃ qualifier last, name = qualifier ++ "." ++ last ∧ '.' ∉ last.toList ∧
        (last, k) ∈ named) ↔ (String.ofList last, k) ∈ named := by
      constructor
      · rintro ⟨qualifier', last', hname, hdot', h⟩
        have hcut' : cutLast? '.' name.toList = some (qualifier'.toList, last'.toList) :=
          cutLast?_eq_some_iff.mpr ⟨by simp [hname], hdot'⟩
        obtain ⟨-, rfl⟩ := Prod.mk.inj (Option.some.inj (hcut.symm.trans hcut'))
        simpa using h
      · exact fun h => ⟨.ofList qualifier, .ofList last, String.toList_injective (by simp [hcs]),
          by simpa using hdot, h⟩
    rw [or_iff_right (hunknown k), hqualified, ← Bindings.find?_eq_some_iff hnodup, hfind, hlast]
    cases Bindings.find? (String.ofList last) named <;> simp

end ProviderKind

/-! ## Targets -/

namespace Config

variable {c : Config} {key : String}

/-- A configuration holds texts, and lists of texts. -/
def Textual (c : Config) : Prop := ∀ key d, c.get? key = some d →
  (∃ s, d = .str s) ∨ ∃ texts : List String, d = .list (texts.map .str)

/-- Texts and lists of texts can be written. -/
lemma Textual.writableAt (h : c.Textual) (key : String) : c.WritableAt key := by
  intro d hd
  rcases h key d hd with ⟨s, rfl⟩ | ⟨texts, rfl⟩
  · exact trivial
  · rw [Datum.Writable, Datum.allWritable_iff]
    simp [Datum.Writable]

/-- Entries are trimmed. -/
lemma trim_of_mem_list {entries : List String} (h : c.list key = .ok entries) :
    ∀ e ∈ entries, trim e = e := by
  have trimmed : ∀ s, ∀ e ∈ entriesOf s, trim e = e := fun s e he =>
    (entry_of_mem he).2.2.trim_eq
  have allTrimmed : ∀ texts : List String, ∀ e ∈ texts.flatMap entriesOf, trim e = e := by
    intro texts e he
    obtain ⟨s, -, he⟩ := List.mem_flatMap.mp he
    exact trimmed s e he
  unfold list at h
  split at h
  · cases h
    simp
  · split at h <;> cases h
    exact allTrimmed _
  · split at h <;> cases h
    exact allTrimmed _
  · split at h <;> cases h
    exact trimmed _

end Config

namespace Provider

variable {α : Type} {read : String → Except ConfigFault α} {k : ProviderKind} {p : Provider}
  {texts : List String}

/-- The signatures of what a provider watches. -/
def targets : Provider → List String
  | .field q => q.fields.map FieldSpec.signature
  | .variable q => q.watched.map VariableSpec.signature
  | .function q => q.functions.map FunctionSpec.pattern
  | .thrown types => types
  | .initial _ | .final | .allDifferent _ => []

/-- A list is read entry by entry. -/
lemma readAll_eq_ok_iff : ∀ {texts : List String} {as : List α},
    readAll read texts = .ok as ↔ List.Forall₂ (fun text a => read text = .ok a) texts as := by
  intro texts
  induction texts with
  | nil => simp [readAll, eq_comm]
  | cons text texts ih =>
    intro as
    rw [readAll, List.forall₂_cons_left_iff]
    cases hread : read text with
    | error f => simp
    | ok a =>
      cases hrest : readAll read texts with
      | error f => simp [← ih, hrest]
      | ok bs => simp [← ih, hrest, eq_comm]

/-- A list is read if every entry is. -/
lemma exists_readAll_iff :
    (∃ as, readAll read texts = .ok as) ↔ ∀ text ∈ texts, ∃ a, read text = .ok a := by
  induction texts with
  | nil => simp [readAll]
  | cons text texts ih =>
    rw [List.forall_mem_cons, ← ih, readAll]
    cases read text with
    | error f => simp
    | ok a => cases readAll read texts <;> simp

/-- What has been read goes by the entries it has been read from. -/
lemma map_of_readAll {signature : α → String}
    (hread : ∀ text ∈ texts, ∀ a, read text = .ok a → signature a = text) {as : List α}
    (h : readAll read texts = .ok as) : as.map signature = texts := by
  rw [readAll_eq_ok_iff] at h
  induction h with
  | nil => rfl
  | cons ha _ ih =>
    obtain ⟨htext, hread⟩ := List.forall_mem_cons.mp hread
    rw [List.map_cons, htext _ ha, ih hread]

/-- Something is made of what has been read if anything has been read. -/
lemma exists_map_iff {β : Type} {x : Except ConfigFault α} {f : α → β} :
    (∃ b, x.map f = .ok b) ↔ ∃ a, x = .ok a := by
  cases x <;> simp [Except.map]

/-- A provider is made of targets in the grammar. -/
lemma exists_ofTargets_iff (htrim : ∀ text ∈ texts, trim text = text) :
    (∃ p, ofTargets k texts = .ok p) ↔ ∀ text ∈ texts, k.Grammar text := by
  have trimmed : ∀ of : String → Prop, (∀ text ∈ texts, of (trim text)) ↔ ∀ text ∈ texts, of text :=
    fun of => forall₂_congr fun text ht => by rw [htrim text ht]
  have dotted : (∀ text ∈ texts, ∃ name, exceptionName text = .ok name) ↔
      ∀ text ∈ texts, Signature.Dotted 1 text := by
    refine forall₂_congr fun text _ => ?_
    rw [exceptionName, ← Signature.isDotted_iff]
    split <;> simp_all
  cases k <;>
    simp only [ofTargets, exists_map_iff, exists_readAll_iff, ProviderKind.Grammar, dotted,
      FieldSpec.exists_parse_iff, FunctionSpec.exists_parse_iff, VariableSpec.exists_parse_iff,
      trimmed, Except.ok.injEq, exists_eq', implies_true]

/-- A provider that is made of targets is of its kind, and watches these targets. -/
lemma of_ofTargets (htrim : ∀ text ∈ texts, trim text = text) (h : ofTargets k texts = .ok p) :
    p.kind = k ∧ (k.HasTargets → p.targets = texts) ∧
      ∀ q, p = .field q → ∀ spec ∈ q.fields,
        spec.signature = spec.owner ++ "." ++ spec.name ∧ isIdentifier spec.name = true := by
  have result : ∀ {α : Type} {x : Except ConfigFault α} {f : α → Provider}, x.map f = .ok p →
      ∃ a, x = .ok a ∧ f a = p := by
    intro α x f h
    cases x with
    | error cause => simp [Except.map] at h
    | ok a => exact ⟨a, rfl, Except.ok.inj h⟩
  have targets : ∀ {α : Type} {parse : String → Except ConfigFault α} {signature : α → String},
      (∀ {text a}, parse text = .ok a → signature a = trim text) →
        ∀ {as}, readAll parse texts = .ok as → as.map signature = texts := fun hparse _ =>
    map_of_readAll fun text ht a ha => (hparse ha).trans (htrim text ht)
  cases k with
  | initial | final | allDifferent =>
    obtain rfl := Except.ok.inj h
    exact ⟨rfl, by simp [ProviderKind.HasTargets], by simp⟩
  | booleanField | integerField =>
    obtain ⟨fields, hread, rfl⟩ := result h
    refine ⟨rfl, fun _ => targets (fun h => (FieldSpec.of_parse h).1) hread, ?_⟩
    rintro q hq spec hs
    obtain rfl := Provider.field.inj hq
    obtain ⟨text, hparse⟩ := exists_of_readAll hread spec hs
    exact (FieldSpec.of_parse hparse).2
  | booleanVariable | positiveVariable =>
    obtain ⟨specs, hread, rfl⟩ := result h
    exact ⟨rfl, fun _ => targets VariableSpec.signature_of_parse hread, by simp⟩
  | invoked | returnedVoid | returnedBoolean | returnedInteger | synchronized =>
    obtain ⟨functions, hread, rfl⟩ := result h
    exact ⟨rfl, fun _ => targets FunctionSpec.of_parse hread, by simp⟩
  | thrown =>
    obtain ⟨types, hread, rfl⟩ := result h
    refine ⟨rfl, fun _ => ?_, by simp⟩
    have hnames : types.map id = texts := map_of_readAll (fun text _ name hname => by
      rw [exceptionName] at hname
      split at hname <;> cases hname
      rfl) hread
    rwa [List.map_id] at hnames

/-- A configuration lets a provider be made: the name is known, and all targets of its kind are in the
grammar. -/
def Accepted (c : Config) (name : String) : Prop :=
  ∃ k, ProviderKind.Registered name k ∧
    ∀ entries, c.list k.targetKey = .ok entries → ∀ entry ∈ entries, k.Grammar entry

/-- A provider is the one that a name stands for: it is of the kind of the name and watches what the
configuration tells it to. -/
def Made (c : Config) (name : String) (p : Provider) : Prop :=
  ProviderKind.Registered name p.kind ∧
    (p.kind.HasTargets → c.list p.kind.targetKey = .ok p.targets) ∧
    ∀ q, p = .field q → ∀ spec ∈ q.fields,
      spec.signature = spec.owner ++ "." ++ spec.name ∧ isIdentifier spec.name = true

variable {c : Config} {name : String}

/-- A provider is made of the entries under the key of its targets. -/
lemma create_of_list {entries : List String} (h : c.list k.targetKey = .ok entries) :
    create c k = (ofTargets k entries).mapError Fault.config := by
  cases k with
  | initial | final | allDifferent => rfl
  | _ =>
    simp only [create, h]
    cases ofTargets _ entries <;> rfl

/-- A provider is made for a name that is accepted, and the one it stands for; for any other name the
configuration is found fault with. -/
lemma ofName_textual (hc : c.Textual) (name : String) :
    (Accepted c name ∧ ∃ p, ofName c name = .ok p ∧ Made c name p) ∨
      ¬Accepted c name ∧ ∃ cause, ofName c name = .error (.config cause) := by
  rw [ofName]
  cases hk : ProviderKind.ofName name with
  | error cause =>
    refine .inr ⟨?_, cause, rfl⟩
    rintro ⟨k, hk', -⟩
    rw [ProviderKind.ofName_eq_ok_iff.mpr hk'] at hk
    simp at hk
  | ok k =>
    obtain ⟨entries, hlist⟩ := Config.exists_list_iff.mpr (hc.writableAt k.targetKey)
    have htrim := Config.trim_of_mem_list hlist
    have hname := ProviderKind.ofName_eq_ok_iff.mp hk
    have haccept : Accepted c name ↔ ∃ p, ofTargets k entries = .ok p := by
      rw [exists_ofTargets_iff htrim]
      constructor
      · rintro ⟨k', hk', hgrammar⟩
        obtain rfl : k = k' :=
          Except.ok.inj (hk.symm.trans (ProviderKind.ofName_eq_ok_iff.mpr hk'))
        exact hgrammar entries hlist
      · refine fun h => ⟨k, hname, fun entries' hlist' => ?_⟩
        obtain rfl : entries = entries' := Except.ok.inj (hlist.symm.trans hlist')
        exact h
    simp only [create_of_list hlist, haccept]
    cases hp : ofTargets k entries with
    | error cause => exact .inr ⟨by simp, cause, rfl⟩
    | ok p =>
      obtain ⟨rfl, htargets, hfields⟩ := of_ofTargets htrim hp
      exact .inl ⟨⟨p, rfl⟩, p, rfl, hname, fun h => (htargets h).symm ▸ hlist, hfields⟩

open scoped Classical in
/-- Of the names in turn, those that are accepted yield a provider each, and the others a report. -/
lemma createNamed_textual (hc : c.Textual) (names : List String) : ∃ ps reports,
    createNamed c names = .ok (ps, reports) ∧
      List.Forall₂ (Made c) (names.filter fun name => Accepted c name) ps ∧
      List.Forall₂ (fun name r => ∃ cause, r = report name cause)
        (names.filter fun name => ¬Accepted c name) reports := by
  induction names with
  | nil => exact ⟨[], [], rfl, .nil, .nil⟩
  | cons name names ih =>
    obtain ⟨ps, reports, hrest, hps, hreports⟩ := ih
    simp only [createNamed, hrest]
    rcases ofName_textual hc name with ⟨haccept, p, hp, hmade⟩ | ⟨hreject, cause, hcause⟩
    · refine ⟨p :: ps, reports, by rw [hp], ?_, ?_⟩
      · rw [List.filter_cons_of_pos (by simpa using haccept)]
        exact .cons hmade hps
      · rwa [List.filter_cons_of_neg (by simpa using haccept)]
    · refine ⟨ps, report name cause :: reports, by rw [hcause], ?_, ?_⟩
      · rwa [List.filter_cons_of_neg (by simpa using hreject)]
      · rw [List.filter_cons_of_pos (by simpa using hreject)]
        exact .cons ⟨cause, rfl⟩ hreports

open scoped Classical in
/-- For a configuration of texts and lists of texts the names of the providers are known. Those that
are accepted yield one provider each, of the kind the name stands for and with the targets of its key,
in the order of the names; each of the others yields one record of an error, and changes nothing
else.

**Proof sketch.** Entries are trimmed, and the functions that read signatures accept just the trimmed
texts of their grammar. A provider is refused as soon as one of its entries is not read, and then the
names that are left are gone through all the same. -/
theorem createAll_accepts (hc : c.Textual) : ∃ names ps reports,
    c.providerNames = .ok names ∧ createAll c = .ok (ps, reports) ∧
      List.Forall₂ (Made c) (names.filter fun name => Accepted c name) ps ∧
      List.Forall₂ (fun name r => r.level = .error ∧ ∃ cause, r = report name cause)
        (names.filter fun name => ¬Accepted c name) reports := by
  obtain ⟨names, hnames⟩ := Config.exists_list_iff.mpr (hc.writableAt "label.class")
  obtain ⟨ps, reports, hmade, hps, hreports⟩ := createNamed_textual hc names
  refine ⟨names, ps, reports, hnames, ?_, hps, hreports.imp ?_⟩
  · rw [createAll, Config.providerNames, hnames, ← hmade]
  · rintro name r ⟨cause, rfl⟩
    exact ⟨rfl, cause, rfl⟩

/-- A configuration of three providers; a field of one of them has no owner. -/
def threeNamed : Config := ⟨.ofList [("label.class", .str "Initial; BooleanStaticField; label.End"),
  ("label.BooleanStaticField.field", .list [.str "prog.on", .str "value"])]⟩

/-- The field without an owner costs one provider and yields one report. -/
theorem createAll_accepts_threeNamed : threeNamed.Textual ∧ ∃ ps reports,
    createAll threeNamed = .ok (ps, reports) ∧ ps.length = 2 ∧ reports.length = 1 := by
  have hc : threeNamed.Textual := by
    intro key d hd
    rcases List.mem_pair.mp (Bindings.of_get?_ofList hd) with h | h
    · exact .inl ⟨_, (Prod.mk.inj h).2⟩
    · exact .inr ⟨["prog.on", "value"], (Prod.mk.inj h).2⟩
  have hnames : threeNamed.providerNames = .ok ["Initial", "BooleanStaticField", "label.End"] := by
    decide +kernel
  have hinitial : Accepted threeNamed "Initial" := ⟨.initial, .inl (by decide), fun _ _ _ _ => trivial⟩
  have hfinal : Accepted threeNamed "label.End" :=
    ⟨.final, .inr ⟨"label", "End", by decide, by decide, by decide⟩, fun _ _ _ _ => trivial⟩
  have hfield : ¬Accepted threeNamed "BooleanStaticField" := by
    rintro ⟨k, hk, hgrammar⟩
    have hkind : ProviderKind.ofName "BooleanStaticField" = .ok .booleanField := by decide +kernel
    obtain rfl := Except.ok.inj (hkind.symm.trans (ProviderKind.ofName_eq_ok_iff.mpr hk))
    have hentries : threeNamed.list (ProviderKind.targetKey .booleanField) =
        .ok ["prog.on", "value"] := by decide +kernel
    have hvalue := hgrammar _ hentries "value" (by simp)
    exact absurd (Signature.dotted_two_iff.mp hvalue).2 (by decide)
  obtain ⟨names, ps, reports, hnames', hmade, hps, hreports⟩ := createAll_accepts hc
  obtain rfl := Except.ok.inj (hnames.symm.trans hnames')
  refine ⟨hc, ps, reports, hmade, ?_, ?_⟩
  · simpa [hinitial, hfinal, hfield] using hps.length_eq.symm
  · simpa [hinitial, hfinal, hfield] using hreports.length_eq.symm

end Provider

end StateAtlas
