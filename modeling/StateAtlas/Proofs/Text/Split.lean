import Mathlib.Data.List.TakeWhile
import Mathlib.Tactic.Common
import StateAtlas.Text.Split

set_option autoImplicit false

/-!
# Pieces of a text

What the pieces between the occurrences of a character have to do with the text.

## Main results

* `StateAtlas.splitChars_append` — the first piece of a text.
* `StateAtlas.exists_last_piece` — the last piece of a text takes what is appended.
* `StateAtlas.splitText_intercalate`, `StateAtlas.intercalate_splitText` — cutting and joining.
* `StateAtlas.mem_splitChars` — every other character of a text is in one of its pieces.
* `StateAtlas.cutFirst?_eq_some_iff`, `StateAtlas.cutLast?_eq_some_iff` — the two sides of the first
  and of the last occurrence of a character.
-/

namespace StateAtlas

lemma splitChars_eq_splitOn (d : Char) (cs : List Char) : splitChars d cs = cs.splitOn d := by
  induction cs with
  | nil => rfl
  | cons c cs ih =>
    rw [splitChars, ih]
    simp only [List.splitOn, List.splitOnP_cons_eq_if_modifyHead]
    split
    · rfl
    · split <;> simp_all

/-- A piece without the separator ends at the first one. -/
lemma splitChars_append {d : Char} {piece : List Char} (h : d ∉ piece) (rest : List Char) :
    splitChars d (piece ++ d :: rest) = piece :: splitChars d rest := by
  have hpiece : ∀ c ∈ piece, (c == d) = false := by
    rintro c hc
    exact beq_false_of_ne fun heq => h (heq ▸ hc)
  rw [splitChars_eq_splitOn, splitChars_eq_splitOn]
  exact List.splitOnP_append_cons_of_forall_mem hpiece d (beq_self_eq_true d) rest

lemma splitChars_of_notMem {d : Char} {piece : List Char} (h : d ∉ piece) :
    splitChars d piece = [piece] := by
  have hpiece : ∀ c ∈ piece, (c == d) = false := by
    rintro c hc
    exact beq_false_of_ne fun heq => h (heq ▸ hc)
  rw [splitChars_eq_splitOn]
  exact List.splitOnP_eq_singleton hpiece

/-- The pieces on the two sides of a separator are the pieces of the whole. -/
lemma splitChars_append_cons (d : Char) (before after : List Char) :
    splitChars d (before ++ d :: after) = splitChars d before ++ splitChars d after := by
  simp only [splitChars_eq_splitOn, List.splitOn_append_cons_self]

/-- The separator is in none of the pieces. -/
lemma notMem_of_mem_splitChars {d : Char} {cs piece : List Char} (h : piece ∈ splitChars d cs) :
    d ∉ piece := by
  induction cs generalizing piece with
  | nil =>
    rw [splitChars, List.mem_singleton] at h
    simp [h]
  | cons c cs ih =>
    rw [splitChars] at h
    split at h
    · rcases List.mem_cons.mp h with rfl | h
      · exact List.not_mem_nil
      · exact ih h
    · rename_i hc
      have hd : d ≠ c := fun hd => hc (beq_iff_eq.mpr hd.symm)
      split at h
      · rw [List.mem_singleton] at h
        simpa [h] using hd
      · rename_i p ps hsplit
        rcases List.mem_cons.mp h with rfl | h
        · rw [List.mem_cons, not_or]
          exact ⟨hd, ih (hsplit ▸ List.mem_cons_self)⟩
        · exact ih (hsplit ▸ List.mem_cons_of_mem p h)

/-- What is appended to a text without the separator is appended to its last piece. -/
lemma exists_last_piece (d : Char) (cs : List Char) : ∃ before last,
    splitChars d cs = before ++ [last] ∧
      ∀ tail, d ∉ tail → splitChars d (cs ++ tail) = before ++ [last ++ tail] := by
  induction cs with
  | nil => exact ⟨[], [], rfl, fun tail h => splitChars_of_notMem h⟩
  | cons c cs ih =>
    obtain ⟨before, last, hcs, happend⟩ := ih
    by_cases hc : (c == d) = true
    · refine ⟨[] :: before, last, by simp [splitChars, hc, hcs], fun tail h => ?_⟩
      simp [splitChars, hc, happend tail h]
    · cases before with
      | nil =>
        refine ⟨[], c :: last, by simp [splitChars, hc, hcs], fun tail h => ?_⟩
        simp [splitChars, hc, happend tail h]
      | cons piece before =>
        refine ⟨(c :: piece) :: before, last, by simp [splitChars, hc, hcs], fun tail h => ?_⟩
        simp [splitChars, hc, happend tail h]

/-- Every character of a text but the separator is in one of the pieces. -/
lemma mem_splitChars {d c : Char} (hc : c ≠ d) {cs : List Char} :
    (∃ piece ∈ splitChars d cs, c ∈ piece) ↔ c ∈ cs := by
  induction cs with
  | nil => simp [splitChars]
  | cons a cs ih =>
    rw [List.mem_cons, ← ih, splitChars]
    split
    · rename_i ha
      obtain rfl := beq_iff_eq.mp ha
      simp [hc]
    · split
      · rename_i hnil
        exact absurd hnil (splitChars_ne_nil d cs)
      · rename_i piece rest hsplit
        simp [hsplit, or_assoc]

/-! ### Texts joined by a separator -/

section Join

variable {d : Char} {sep : String}

/-- The pieces of texts joined by a separator that is in none of them are the texts. -/
lemma splitText_intercalate (hsep : sep.toList = [d]) {parts : List String} (hne : parts ≠ [])
    (h : ∀ part ∈ parts, d ∉ part.toList) :
    splitText d (String.intercalate sep parts) = parts := by
  have hsplit : splitChars d ([d].intercalate (parts.map String.toList)) =
      parts.map String.toList := by
    rw [splitChars_eq_splitOn]
    refine List.splitOn_intercalate d ?_ (by simpa using hne)
    simpa using h
  rw [splitText, String.toList_intercalate, hsep, hsplit, List.map_map]
  simp

/-- A text is its pieces joined by the separator. -/
lemma intercalate_splitText (hsep : sep.toList = [d]) (s : String) :
    String.intercalate sep (splitText d s) = s := by
  apply String.toList_injective
  rw [String.toList_intercalate, splitText, List.map_map, hsep,
    show String.toList ∘ String.ofList = id by funext; simp, List.map_id, splitChars_eq_splitOn]
  exact List.intercalate_splitOn d

end Join

/-! ### The two sides of an occurrence -/

variable {d : Char} {cs before after : List Char}

lemma cutFirst?_append (h : d ∉ before) :
    cutFirst? d (before ++ d :: after) = some (before, after) := by
  have hbefore : ∀ c ∈ before, (c != d) = true := fun c hc => bne_iff_ne.mpr fun heq => h (heq ▸ hc)
  simp only [cutFirst?, List.dropWhile_append_of_pos hbefore,
    List.takeWhile_append_of_pos hbefore, bne_self_eq_false, Bool.false_eq_true, not_false_eq_true,
    List.dropWhile_cons_of_neg, List.takeWhile_cons_of_neg, List.append_nil]

lemma cutFirst?_eq_none_iff : cutFirst? d cs = none ↔ d ∉ cs := by
  refine ⟨fun h hd => ?_, fun h => ?_⟩
  · obtain ⟨before, after, rfl, hbefore⟩ := List.eq_append_cons_of_mem hd
    rw [cutFirst?_append hbefore] at h
    simp at h
  · have hdrop : cs.dropWhile (· != d) = [] :=
      List.dropWhile_eq_nil_iff.mpr fun c hc => bne_iff_ne.mpr fun heq => h (heq ▸ hc)
    rw [cutFirst?, hdrop]

lemma cutFirst?_eq_some_iff :
    cutFirst? d cs = some (before, after) ↔ cs = before ++ d :: after ∧ d ∉ before := by
  refine ⟨fun h => ?_, fun ⟨hcs, hd⟩ => hcs ▸ cutFirst?_append hd⟩
  by_cases hd : d ∈ cs
  · obtain ⟨before', after', rfl, hbefore⟩ := List.eq_append_cons_of_mem hd
    rw [cutFirst?_append hbefore] at h
    obtain ⟨rfl, rfl⟩ := Prod.mk.inj (Option.some.inj h)
    exact ⟨rfl, hbefore⟩
  · rw [cutFirst?_eq_none_iff.mpr hd] at h
    simp at h

lemma cutLast?_eq_none_iff : cutLast? d cs = none ↔ d ∉ cs := by
  rw [cutLast?, Option.map_eq_none_iff, cutFirst?_eq_none_iff, List.mem_reverse]

lemma cutLast?_eq_some_iff :
    cutLast? d cs = some (before, after) ↔ cs = before ++ d :: after ∧ d ∉ after := by
  rw [cutLast?, Option.map_eq_some_iff]
  constructor
  · rintro ⟨⟨after', before'⟩, h, heq⟩
    obtain ⟨rfl, rfl⟩ := Prod.mk.inj heq
    obtain ⟨hcs, hd⟩ := cutFirst?_eq_some_iff.mp h
    exact ⟨by simpa using congrArg List.reverse hcs, by simpa using hd⟩
  · rintro ⟨rfl, hd⟩
    exact ⟨(after.reverse, before.reverse),
      cutFirst?_eq_some_iff.mpr ⟨by simp, by simpa using hd⟩, by simp⟩

end StateAtlas
