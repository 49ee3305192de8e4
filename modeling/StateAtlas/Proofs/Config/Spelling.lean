import StateAtlas.Config.Basic
import StateAtlas.Proofs.Text.Split
import StateAtlas.Proofs.Text.Trim

set_option autoImplicit false

/-!
# Spellings of lists

A list-valued key can hold a list of texts or a single text in which they are joined by semicolons.
Its entries are the same either way, and they are a normal form: written down again in any of these
ways, they are the entries once more.

## Main definitions

* `StateAtlas.Config.Lists` — the texts of the items of a list.
* `StateAtlas.Config.Spells` — the ways to write down texts as the value of a key.

## Main results

* `StateAtlas.Config.entriesOf_intercalate` — joined texts have the entries of all of them.
* `StateAtlas.Config.entriesOf_eq_singleton` — an entry is its own only entry.
* `StateAtlas.Config.list_of_spells` — the entries of a key that holds some texts.
* `StateAtlas.Config.spellings_agree` — they do not depend on how the texts are written down.
-/

namespace StateAtlas

namespace Config

variable {c : Config} {key s e : String} {texts : List String}

/-! ## Entries of a text -/

/-- Two texts with a semicolon between them have the entries of both. -/
lemma entriesOf_append (s t : String) : entriesOf (s ++ ";" ++ t) = entriesOf s ++ entriesOf t := by
  have hsplit : splitText ';' (s ++ ";" ++ t) = splitText ';' s ++ splitText ';' t := by
    have hchars : (s ++ ";" ++ t).toList = s.toList ++ ';' :: t.toList := by simp
    rw [splitText, hchars, splitChars_append_cons, List.map_append]
    rfl
  rw [entriesOf, hsplit, List.map_append, List.filter_append]
  rfl

/-- Texts with semicolons between them have the entries of all of them.

**Proof sketch.** Induction on the texts; a list without texts is written down as the empty text,
and that has no entry. -/
lemma entriesOf_intercalate (texts : List String) :
    entriesOf (String.intercalate ";" texts) = texts.flatMap entriesOf := by
  induction texts with
  | nil => decide +kernel
  | cons s texts ih =>
    cases texts with
    | nil => simp
    | cons t texts =>
      rw [String.intercalate_cons_cons, entriesOf_append, ih]
      exact List.flatMap_cons.symm

/-- An entry is not empty, has no semicolon and neither begins nor ends with a blank. -/
lemma entry_of_mem (h : e ∈ entriesOf s) : e ≠ "" ∧ ';' ∉ e.toList ∧ Trimmed e.toList := by
  obtain ⟨hmap, hne⟩ := List.mem_filter.mp h
  obtain ⟨piece, hpiece, rfl⟩ := List.mem_map.mp hmap
  obtain ⟨cs, hcs, rfl⟩ := List.mem_map.mp hpiece
  rw [trim, String.toList_ofList, String.toList_ofList]
  refine ⟨by simpa [trim] using hne, fun hc => ?_, trimmed_trimChars cs⟩
  -- what is left of a piece is part of the piece
  obtain ⟨before, after, htrim, -, -⟩ := exists_trimChars cs
  refine notMem_of_mem_splitChars hcs ?_
  rw [htrim]
  exact List.mem_append_left _ (List.mem_append_right _ hc)

/-- Such a text is its own only entry. -/
lemma entriesOf_eq_singleton (hne : e ≠ "") (hsep : ';' ∉ e.toList) (htrim : Trimmed e.toList) :
    entriesOf e = [e] := by
  rw [entriesOf, splitText, splitChars_of_notMem hsep]
  simp [htrim.trim_eq, hne]

/-- Entries are their own entries. -/
lemma flatMap_entriesOf (texts : List String) :
    (texts.flatMap entriesOf).flatMap entriesOf = texts.flatMap entriesOf := by
  have hself : ∀ e ∈ texts.flatMap entriesOf, entriesOf e = [e] := by
    intro e he
    obtain ⟨s, -, he⟩ := List.mem_flatMap.mp he
    obtain ⟨hne, hsep, htrim⟩ := entry_of_mem he
    exact entriesOf_eq_singleton hne hsep htrim
  generalize texts.flatMap entriesOf = entries at hself ⊢
  induction entries with
  | nil => rfl
  | cons e entries ih =>
    obtain ⟨he, hentries⟩ := List.forall_mem_cons.mp hself
    rw [List.flatMap_cons, he, ih hentries, List.singleton_append]

/-! ## Ways to write down a list -/

/-- The texts of the items of a list, where items that are nothing have none. -/
inductive Lists : List String → List Datum → Prop
  | nil : Lists [] []
  | skip {texts : List String} {items : List Datum} :
    Lists texts items → Lists texts (.null :: items)
  | item {d : Datum} {t : String} {texts : List String} {items : List Datum} :
    d ≠ .null → d.shown? = some t → Lists texts items → Lists (t :: texts) (d :: items)

/-- A value of a key stands for some texts: it is a list or a tuple of them, or it is the text in
which they are joined by semicolons. -/
inductive Spells (texts : List String) : Datum → Prop
  | list {items : List Datum} : Lists texts items → Spells texts (.list items)
  | tuple {items : List Datum} : Lists texts items → Spells texts (.tuple items)
  | joined : Spells texts (.str (String.intercalate ";" texts))

/-- A list of texts stands for them. -/
lemma spells_list (texts : List String) : Spells texts (.list (texts.map .str)) := by
  refine .list ?_
  induction texts with
  | nil => exact .nil
  | cons t texts ih => exact .item (by simp) rfl ih

lemma itemTexts?_of_lists {items : List Datum} (h : Lists texts items) :
    itemTexts? items = some texts := by
  induction h with
  | nil => rfl
  | skip _ ih => exact ih
  | item hd ht _ ih =>
    rw [itemTexts?, ht, ih]
    exact hd

/-- Whichever way texts are written down, the entries under the key are those of all the texts. -/
lemma list_of_spells {d : Datum} (hd : c.get? key = some d) (h : Spells texts d) :
    c.list key = .ok (texts.flatMap entriesOf) := by
  rw [list, setting?, hd]
  cases h with
  | list h => simp only [itemTexts?_of_lists h]
  | tuple h => simp only [itemTexts?_of_lists h]
  | joined =>
    rw [← entriesOf_intercalate]
    rfl

/-- **Lists mean the same in every spelling.** Some texts have entries such that

* every key that holds the texts, as a list or a tuple (with items that are nothing anywhere between
  them) or joined by semicolons, has just these entries;
* they are what is left of the pieces between the semicolons of the joined texts when the blanks
  around each are taken away and the empty ones are left out, in this order;
* none of them is empty, has a semicolon or begins or ends with a blank; and
* every key that holds the entries, in any of these ways, has the same entries again.

A key that is missing or holds nothing has none. -/
theorem spellings_agree (texts : List String) : ∃ entries : List String,
    (∀ (c : Config) (key : String) (d : Datum), c.get? key = some d → Spells texts d →
      c.list key = .ok entries) ∧
    (∃ pieces : List String, (∀ piece ∈ pieces, ';' ∉ piece.toList) ∧
      String.intercalate ";" pieces = String.intercalate ";" texts ∧
      entries = (pieces.map trim).filter (· ≠ "")) ∧
    (∀ e ∈ entries, e ≠ "" ∧ ';' ∉ e.toList ∧ Trimmed e.toList) ∧
    (∀ (c : Config) (key : String) (d : Datum), c.get? key = some d → Spells entries d →
      c.list key = .ok entries) ∧
    ∀ (c : Config) (key : String), c.get? key = none ∨ c.get? key = some .null →
      c.list key = .ok [] := by
  refine ⟨texts.flatMap entriesOf, fun c key d hd h => list_of_spells hd h,
    ⟨splitText ';' (String.intercalate ";" texts), fun piece hpiece => ?_,
      intercalate_splitText rfl _, (entriesOf_intercalate texts).symm⟩, fun e he => ?_,
    fun c key d hd h => ?_, fun c key h => ?_⟩
  · obtain ⟨cs, hcs, rfl⟩ := List.mem_map.mp hpiece
    rw [String.toList_ofList]
    exact notMem_of_mem_splitChars hcs
  · obtain ⟨s, -, he⟩ := List.mem_flatMap.mp he
    exact entry_of_mem he
  · rw [list_of_spells hd h, flatMap_entriesOf]
  · rcases h with h | h <;> rw [list, setting?, h]

/-- A configuration that holds three texts as a list under one key, and joined under another one. -/
def letters : Config := ofFields
  [("nested", .node [("list", .leaf (.list [.str " a ;; b", .null, .str "", .str ";c "]))]),
    ("joined", .leaf (.str " a ;; b;;;c "))]

/-- Both keys have the same three entries, and so has a key that holds these. -/
theorem spellings_agree_letters : ∃ entries : List String,
    letters.get? "nested.list" = some (.list [.str " a ;; b", .null, .str "", .str ";c "]) ∧
    letters.get? "joined" = some (.str (String.intercalate ";" [" a ;; b", "", ";c "])) ∧
    letters.list "nested.list" = .ok entries ∧ letters.list "joined" = .ok entries ∧
    (letters.override [("again", .list (entries.map .str))]).list "again" = .ok entries ∧
    letters.list "missing" = .ok [] ∧ entries = ["a", "b", "c"] := by
  obtain ⟨entries, hspells, -, -, hagain, hmissing⟩ := spellings_agree [" a ;; b", "", ";c "]
  have hlist : letters.get? "nested.list" =
      some (.list [.str " a ;; b", .null, .str "", .str ";c "]) := by rfl
  have hjoined : letters.get? "joined" =
      some (.str (String.intercalate ";" [" a ;; b", "", ";c "])) := by rfl
  have hentries := hspells letters "joined" _ hjoined .joined
  refine ⟨entries, hlist, hjoined, ?_, hentries, ?_, hmissing _ _ (.inl rfl), ?_⟩
  · exact hspells letters _ _ hlist
      (.list (.item (by simp) rfl (.skip (.item (by simp) rfl (.item (by simp) rfl .nil)))))
  · exact hagain _ _ _ (Bindings.get?_set_self ..) (spells_list entries)
  · have hvalue : letters.list "joined" = .ok ["a", "b", "c"] := by decide +kernel
    exact Except.ok.inj (hentries.symm.trans hvalue)

end Config

end StateAtlas
