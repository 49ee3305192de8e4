import Mathlib.Algebra.Group.Nat.Defs
import Mathlib.Tactic.Common
import StateAtlas.Text.Quoted

set_option autoImplicit false

/-!
# Quoted text can be read back

A quoted text tells the text, and it tells where it ends: whatever follows, two quoted texts that
begin the same are the same. The closing quote cannot be met inside, because there it is escaped,
and no escape begins another one.

## Main results

* `StateAtlas.Quoted.eq_of_chars_append` — quoted characters are told from what comes after them.
* `StateAtlas.Quoted.eq_of_text_append`, `StateAtlas.Quoted.eq_of_bytes_append` — the same of quoted
  texts and of quoted sequences of bytes.

## Design

All statements compare two texts together with what follows them. This is the form in which they
can be used inside a larger text, and the form that an induction on the characters needs.
-/

namespace StateAtlas

namespace Quoted

/-! ## Hexadecimal digits -/

/-- The hexadecimal digits of a number, with as many as asked for. -/
@[simp] lemma length_hex (width n : Nat) : (hex width n).length = width := by
  induction width generalizing n with
  | zero => rfl
  | succ width ih => simp [hex, ih]

/-- Hexadecimal digits are different characters. -/
lemma digitChar_inj {m n : Nat} (hm : m < 16) (hn : n < 16)
    (h : Nat.digitChar m = Nat.digitChar n) : m = n := by
  have hall : ∀ m < 16, ∀ n < 16, Nat.digitChar m = Nat.digitChar n → m = n := by decide
  exact hall m hm n hn h

/-- A number is told by its hexadecimal digits if there are enough of them. -/
lemma hex_inj {width : Nat} : ∀ {m n : Nat}, m < 16 ^ width → n < 16 ^ width →
    hex width m = hex width n → m = n := by
  induction width with
  | zero =>
    intro m n hm hn _
    simp only [Nat.pow_zero] at hm hn
    omega
  | succ width ih =>
    intro m n hm hn h
    rw [Nat.pow_succ] at hm hn
    obtain ⟨hhigh, hlow⟩ := List.append_inj' h rfl
    have hhigh := ih (by omega) (by omega) hhigh
    have hlow := digitChar_inj (Nat.mod_lt m (by decide)) (Nat.mod_lt n (by decide))
      (List.cons.inj hlow).1
    omega

/-- A number is told by its hexadecimal digits, and so is what follows them. -/
lemma eq_of_hex_append {width m n : Nat} {r s : List Char} (hm : m < 16 ^ width)
    (hn : n < 16 ^ width) (h : hex width m ++ r = hex width n ++ s) : m = n ∧ r = s := by
  obtain ⟨hhex, hrest⟩ := List.append_inj h (by simp)
  exact ⟨hex_inj hm hn hhex, hrest⟩

/-! ## Escapes -/

/-- A quote for text. -/
def IsQuote (c : Char) : Prop := c = '\'' ∨ c = '"'

/-- Text is put in quotes. -/
lemma isQuote_quoteFor (cs : List Char) : IsQuote (quoteFor cs) := by
  unfold quoteFor IsQuote
  split <;> simp

/-- The characters that have an escape of one letter, each after its letter. -/
def letters (quote : Char) : List (Char × Char) :=
  [(quote, quote), ('\\', '\\'), ('t', '\t'), ('n', '\n'), ('r', '\r')]

/-- The letters that begin an escape by number, each with how many digits follow. -/
def widths : List (Char × Nat) := [('x', 2), ('u', 4), ('U', 8)]

/-- The letter of an escape tells its kind; it tells the character, or the number of digits. -/
lemma eq_of_letter {quote : Char} (hq : IsQuote quote) :
    (∀ e ∈ letters quote, (∀ e' ∈ letters quote, e.1 = e'.1 → e = e') ∧
      ∀ e' ∈ widths, e.1 ≠ e'.1) ∧
    ∀ e ∈ widths, ∀ e' ∈ widths, e.1 = e'.1 → e = e' := by
  obtain rfl | rfl := hq <;> decide

/-- The ways in which a character is written between quotes. -/
inductive Piece (quote c : Char) : List Char → Prop
  | plain (hq : c ≠ quote) (hb : c ≠ '\\') : Piece quote c [c]
  | letter (letter : Char) (h : (letter, c) ∈ letters quote) : Piece quote c ['\\', letter]
  | number (letter : Char) (width : Nat) (h : (letter, width) ∈ widths) (hc : c.toNat < 16 ^ width) :
      Piece quote c ('\\' :: letter :: hex width c.toNat)

variable {quote c d : Char} {p p' r s : List Char}

/-- A short escape is one of the ways to write a character. -/
lemma Piece.of_short? (h : short? quote c = some p) : Piece quote c p := by
  unfold short? at h
  split at h
  · rename_i hc
    obtain rfl := Option.some.inj h
    exact .letter c (by simp at hc; rcases hc with rfl | rfl <;> simp [letters])
  iterate 3
    split at h
    · rename_i hc
      obtain rfl := Option.some.inj h
      exact .letter _ (by simp at hc; simp [letters, hc])
  simp at h

/-- A character without a short escape is no quote and no backslash. -/
lemma ne_of_short?_eq_none (h : short? quote c = none) : c ≠ quote ∧ c ≠ '\\' := by
  unfold short? at h
  split at h
  · simp at h
  · rename_i hc
    simpa using hc

/-- A character of a quoted text is written in one of these ways. -/
lemma piece_char (quote c : Char) : Piece quote c (char quote c) := by
  unfold char
  split
  · rename_i h
    exact .of_short? h
  · rename_i h
    obtain ⟨hq, hb⟩ := ne_of_short?_eq_none h
    dsimp only
    split
    · exact .plain hq hb
    split
    · rename_i h
      exact .number 'x' 2 (by simp [widths]) h
    split
    · rename_i h
      exact .number 'u' 4 (by simp [widths]) h
    · exact .number 'U' 8 (by simp [widths]) c.val.toNat_lt

/-- A byte is the number of a character. -/
lemma toNat_ofNat_toNat (b : UInt8) : (Char.ofNat b.toNat).toNat = b.toNat := by
  have hb : b.toNat.isValidChar := .inl (by have := b.toNat_lt; omega)
  rw [Char.ofNat, dif_pos hb]
  rfl

/-- A byte of a quoted sequence is written in one of these ways. -/
lemma piece_byte (quote : Char) (b : UInt8) :
    Piece quote (Char.ofNat b.toNat) (byte quote b) := by
  have hb := toNat_ofNat_toNat b
  have hlt := b.toNat_lt
  unfold byte
  dsimp only
  split
  · rename_i h
    exact .of_short? h
  · rename_i h
    obtain ⟨hq, hc⟩ := ne_of_short?_eq_none h
    split
    · exact .plain hq hc
    · have hshort : Piece quote (Char.ofNat b.toNat)
          ('\\' :: 'x' :: hex 2 (Char.ofNat b.toNat).toNat) :=
        .number 'x' 2 (by simp [widths]) (by rw [hb]; exact hlt)
      rwa [hb] at hshort

/-- What is written tells the character, and where it ends. -/
lemma Piece.eq_of_append (hq : IsQuote quote) (h : Piece quote c p) (h' : Piece quote d p')
    (heq : p ++ r = p' ++ s) : c = d ∧ r = s := by
  obtain ⟨hletters, hwidths⟩ := eq_of_letter hq
  cases h with
  | plain _ hb =>
    cases h' with
    | plain => simpa using heq
    | _ => exact absurd (List.cons.inj heq).1 hb
  | letter x hx =>
    cases h' with
    | plain _ hb => exact absurd (List.cons.inj heq).1.symm hb
    | letter y hy =>
      obtain ⟨rfl, rfl⟩ : x = y ∧ r = s := by simpa using heq
      exact ⟨(Prod.mk.inj ((hletters _ hx).1 _ hy rfl)).2, rfl⟩
    | number y width hy =>
      obtain ⟨hxy, -⟩ := List.cons.inj (List.cons.inj heq).2
      exact absurd hxy ((hletters _ hx).2 _ hy)
  | number x width hx hc =>
    cases h' with
    | plain _ hb => exact absurd (List.cons.inj heq).1.symm hb
    | letter y hy =>
      obtain ⟨hxy, -⟩ := List.cons.inj (List.cons.inj heq).2
      exact absurd hxy.symm ((hletters _ hy).2 _ hx)
    | number y width' hy hd =>
      obtain ⟨hxy, hdigits⟩ := List.cons.inj (List.cons.inj heq).2
      obtain rfl : width = width' := (Prod.mk.inj (hwidths _ hx _ hy hxy)).2
      obtain ⟨hn, hrest⟩ := eq_of_hex_append hc hd hdigits
      exact ⟨Char.toNat_inj.mp hn, hrest⟩

/-- What is written does not begin with the closing quote. -/
lemma Piece.append_ne (hq : IsQuote quote) (h : Piece quote c p) : p ++ r ≠ quote :: s := by
  intro heq
  have hb : '\\' ≠ quote := by rcases hq with rfl | rfl <;> decide
  cases h with
  | plain hq _ => exact hq (List.cons.inj heq).1
  | _ => exact hb (List.cons.inj heq).1

/-! ## Quoted text -/

/-- Characters up to the closing quote are told from what comes after it. -/
lemma eq_of_flatMap_append {α : Type} {write : α → List Char} {number : α → Char}
    (hq : IsQuote quote) (hwrite : ∀ a, Piece quote (number a) (write a))
    (hnumber : Function.Injective number) {as bs : List α} :
    as.flatMap write ++ quote :: r = bs.flatMap write ++ quote :: s → as = bs ∧ r = s := by
  induction as generalizing bs with
  | nil =>
    intro h
    cases bs with
    | nil => exact ⟨rfl, (List.cons.inj h).2⟩
    | cons b bs =>
      rw [List.flatMap_cons, List.append_assoc] at h
      exact absurd h.symm ((hwrite b).append_ne hq)
  | cons a as ih =>
    intro h
    rw [List.flatMap_cons, List.append_assoc] at h
    cases bs with
    | nil => exact absurd h ((hwrite a).append_ne hq)
    | cons b bs =>
      rw [List.flatMap_cons, List.append_assoc] at h
      obtain ⟨hnum, h⟩ := (hwrite a).eq_of_append hq (hwrite b) h
      obtain ⟨rfl, hrest⟩ := ih h
      exact ⟨by rw [hnumber hnum], hrest⟩

/-- Quoted characters are told from what comes after them. -/
theorem eq_of_chars_append {cs ds : List Char} (h : chars cs ++ r = chars ds ++ s) :
    cs = ds ∧ r = s := by
  simp only [chars, List.cons_append, List.append_assoc, List.nil_append] at h
  obtain ⟨hquote, h⟩ := List.cons.inj h
  rw [hquote] at h
  exact eq_of_flatMap_append (isQuote_quoteFor ds) (piece_char _) Function.injective_id h

/-- A quoted text is told from what comes after it. -/
theorem eq_of_text_append {t u : String} (h : (text t).toList ++ r = (text u).toList ++ s) :
    t = u ∧ r = s := by
  simp only [text, String.toList_ofList] at h
  obtain ⟨hchars, hrest⟩ := eq_of_chars_append h
  exact ⟨String.toList_inj.mp hchars, hrest⟩

/-- A quoted sequence of bytes is told from what comes after it. -/
theorem eq_of_bytes_append {bs cs : List UInt8}
    (h : (bytes bs).toList ++ r = (bytes cs).toList ++ s) : bs = cs ∧ r = s := by
  have hinj : Function.Injective fun b : UInt8 => Char.ofNat b.toNat := fun a b hab => by
    rw [← UInt8.toNat_inj, ← toNat_ofNat_toNat a, ← toNat_ofNat_toNat b]
    exact congrArg Char.toNat hab
  simp only [bytes, String.toList_ofList, List.cons_append, List.append_assoc,
    List.nil_append] at h
  obtain ⟨-, h⟩ := List.cons.inj h
  obtain ⟨hquote, h⟩ := List.cons.inj h
  rw [hquote] at h
  exact eq_of_flatMap_append (isQuote_quoteFor _) (piece_byte _) hinj h

end Quoted

end StateAtlas
