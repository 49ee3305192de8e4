import Mathlib.Data.List.DropRight
import Mathlib.Tactic.Common
import StateAtlas.Text.Blank
import StateAtlas.Text.Identifier
import StateAtlas.Text.Word

set_option autoImplicit false

/-!
# Trimmed texts

A text is its trimmed form between two blank ends, and this form neither begins nor ends with a
blank. No blank is part of a word or of an identifier.

## Main definitions

* `StateAtlas.Trimmed` — a text that neither begins nor ends with a blank.

## Main results

* `StateAtlas.exists_trimChars` — what trimming takes away.
* `StateAtlas.trimChars_surrounded`, `StateAtlas.trimmed_trimChars` — what trimming leaves.
* `StateAtlas.not_isBlank_of_isIdentifier` — identifiers have no blanks in them.
-/

namespace StateAtlas

/-! ### What trimming leaves -/

lemma trimChars_eq (cs : List Char) :
    trimChars cs = (cs.dropWhile isBlank).rdropWhile isBlank := rfl

/-- A text is its trimmed form between two blank ends. -/
lemma exists_trimChars (cs : List Char) : ∃ before after : List Char,
    cs = before ++ trimChars cs ++ after ∧ (∀ c ∈ before, isBlank c = true) ∧
      ∀ c ∈ after, isBlank c = true := by
  refine ⟨cs.takeWhile isBlank, (cs.dropWhile isBlank).rtakeWhile isBlank, ?_,
    fun c => List.mem_takeWhile_imp, fun c => List.mem_rtakeWhile_imp⟩
  rw [trimChars_eq, List.append_assoc, List.rdropWhile_append_rtakeWhile,
    List.takeWhile_append_dropWhile]

/-- A text with blank ends is trimmed to what is between them, if no blank is there. -/
lemma trimChars_surrounded {before text after : List Char} (hb : ∀ c ∈ before, isBlank c = true)
    (ha : ∀ c ∈ after, isBlank c = true) (h : ∀ c ∈ text, isBlank c = false) :
    trimChars (before ++ text ++ after) = text := by
  have htext : text.reverse.dropWhile isBlank = text.reverse :=
    List.dropWhile_eq_self_iff.mpr fun hl =>
      Bool.not_eq_true _ ▸ h _ (List.mem_reverse.mp (List.getElem_mem hl))
  have hright : (text ++ after).rdropWhile isBlank = text := by
    rw [List.rdropWhile, List.reverse_append, List.dropWhile_append_of_pos (by simpa using ha), htext,
      List.reverse_reverse]
  rw [trimChars_eq, List.append_assoc, List.dropWhile_append_of_pos hb]
  cases text with
  | nil =>
    rw [List.nil_append, List.dropWhile_eq_nil_iff.mpr ha]
    rfl
  | cons c cs => rw [List.cons_append, List.dropWhile_cons_of_neg (by simp [h c]), ← hright]; rfl

/-- A text that neither begins nor ends with a blank. -/
def Trimmed (cs : List Char) : Prop :=
  (∀ c, cs.head? = some c → isBlank c = false) ∧ ∀ c, cs.getLast? = some c → isBlank c = false

/-- What trimming leaves neither begins nor ends with a blank. -/
lemma trimmed_trimChars (cs : List Char) : Trimmed (trimChars cs) := by
  refine ⟨fun c hc => ?_, fun c hc => ?_⟩
  · -- it begins as the text does without the blanks before it
    have hstart : trimChars cs <+: cs.dropWhile isBlank := List.rdropWhile_prefix isBlank _
    have hhead : (cs.dropWhile isBlank).head? = some c := by
      obtain ⟨rest, hrest⟩ := hstart
      rw [← hrest, List.head?_append, hc]
      rfl
    simpa [hhead] using List.head?_dropWhile_not isBlank cs
  · obtain ⟨hne, rfl⟩ := List.mem_getLast?_eq_getLast hc
    exact Bool.not_eq_true _ ▸ List.rdropWhile_last_not isBlank _ hne

/-- What neither begins nor ends with a blank is trimmed already. -/
lemma Trimmed.trimChars_eq {cs : List Char} (h : Trimmed cs) : trimChars cs = cs := by
  have hleft : cs.dropWhile isBlank = cs :=
    List.dropWhile_eq_self_iff.mpr fun hl =>
      Bool.not_eq_true _ ▸ h.1 _ (List.head?_eq_getElem?.trans (List.getElem?_eq_getElem hl))
  rw [StateAtlas.trimChars_eq, hleft, List.rdropWhile_eq_self_iff]
  exact fun hne => Bool.not_eq_true _ ▸ h.2 _ (List.getLast?_eq_some_getLast hne)

lemma Trimmed.trim_eq {s : String} (h : Trimmed s.toList) : trim s = s := by
  rw [trim, h.trimChars_eq, String.ofList_toList]

/-! ### Blanks in other classes -/

/-- The code points of the blanks. -/
def blankCodes : List Nat :=
  [9, 10, 11, 12, 13, 28, 29, 30, 31, 32, 133, 160, 5760, 8192, 8193, 8194, 8195, 8196, 8197, 8198,
   8199, 8200, 8201, 8202, 8232, 8233, 8239, 8287, 12288]

lemma CharClass.inside_cons_cons (c a b : Nat) (es : List Nat) :
    inside c (a :: b :: es) = (decide (a ≤ c) && (decide (c < b) || inside c es)) := by
  by_cases ha : c < a
  · simp [inside_cons_of_lt _ ha, Nat.not_le.mpr ha]
  · rw [inside_cons_of_le _ (Nat.not_lt.mp ha)]
    by_cases hb : c < b
    · simp [inside_cons_of_lt _ hb, hb, Nat.not_lt.mp ha]
    · simp [inside_cons_of_le _ (Nat.not_lt.mp hb), hb, Nat.not_lt.mp ha]

lemma mem_blankCodes {c : Char} (h : isBlank c = true) : c.toNat ∈ blankCodes := by
  rw [isBlank, CharClass.contains, blankCharacters] at h
  generalize c.toNat = n at h
  simp only [CharClass.inside_cons_cons, CharClass.inside_nil, Bool.and_eq_true, Bool.or_eq_true,
    decide_eq_true_eq, Bool.false_eq_true, or_false] at h
  simp only [blankCodes, List.mem_cons, List.not_mem_nil, or_false]
  omega

/-- A class without the code points of the blanks has no blanks in it. -/
lemma CharClass.not_isBlank {k : CharClass} (hk : ∀ n ∈ blankCodes, inside n k.edges = false)
    {c : Char} (h : k.contains c = true) : isBlank c = false := by
  by_contra hc
  have := hk _ (mem_blankCodes (by simpa using hc))
  rw [contains, this] at h
  simp at h

lemma not_isBlank_of_word {c : Char} (h : wordCharacters.contains c = true) : isBlank c = false :=
  CharClass.not_isBlank (by decide +kernel) h

/-- There are no blanks in an identifier. -/
lemma not_isBlank_of_isIdentifier {s : String} (h : isIdentifier s = true) :
    ∀ c ∈ s.toList, isBlank c = false := by
  rw [isIdentifier] at h
  split at h
  · simp at h
  · rename_i c cs hs
    rw [Bool.and_eq_true, List.all_eq_true] at h
    rw [hs, List.forall_mem_cons]
    exact ⟨CharClass.not_isBlank (by decide +kernel) h.1,
      fun d hd => CharClass.not_isBlank (by decide +kernel) (h.2 d hd)⟩

end StateAtlas
