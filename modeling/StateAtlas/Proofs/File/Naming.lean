import StateAtlas.File.Path
import StateAtlas.Proofs.File.Access
import StateAtlas.Proofs.Text.Split

set_option autoImplicit false

/-!
# Names with a suffix

A file gets its name from a name and a suffix. Whatever the name is, the suffix ends up at the end of
the last name of the path, so that files that differ in the suffix stand side by side in one
directory; and a character that no path may have is in all of the paths or in none.

## Main definitions

* `StateAtlas.Path.Barred` — there would be a null character in the path of a file.

## Main results

* `StateAtlas.Path.exists_child_of_suffix` — files that differ in the suffix stand side by side.
* `StateAtlas.Path.mem_join_ofText` — the characters of the path of a name in a directory.
* `StateAtlas.Path.Barred.append` — what no path may have stays in longer names.
-/

namespace StateAtlas

namespace Path

/-- A root is made of the slashes at the start. -/
lemma rootOf_eq (cs : List Char) : rootOf cs =
    if cs.head? = some '/' then
      if cs.tail.head? = some '/' ∧ cs.tail.tail.head? ≠ some '/' then "//" else "/"
    else "" := by
  unfold rootOf
  split <;> simp_all [List.head?_eq_some_iff]

/-- What does not begin with a slash does not change the root of what stands before it. -/
lemma rootOf_append {tail : List Char} (h : tail.head? ≠ some '/') (cs : List Char) :
    rootOf (cs ++ tail) = rootOf cs := by
  rw [rootOf_eq, rootOf_eq]
  rcases cs with _ | ⟨a, _ | ⟨b, _ | ⟨c, rest⟩⟩⟩ <;> simp [h]

lemma join_child (p q : Path) (name : String) :
    p.join (q.child name) = (p.join q).child name := by
  by_cases hq : q.root = "" <;> simp [join, child, hq]

/-- Files whose names differ in the suffix stand side by side: the suffix is added to the last name
of the path. -/
theorem exists_child_of_suffix (dir : Path) (s : String) : ∃ (folder : Path) (last : String),
    ∀ suffix : String, '/' ∉ suffix.toList → 1 < suffix.length →
      dir.join (ofText (s ++ suffix)) = folder.child (last ++ suffix) := by
  obtain ⟨before, last, -, happend⟩ := exists_last_piece '/' s.toList
  refine ⟨dir.join ⟨rootOf s.toList, (before.map String.ofList).filter fun n => n ≠ "" && n ≠ "."⟩,
    String.ofList last, fun suffix hs hlength => ?_⟩
  have hkept : ([String.ofList last ++ suffix].filter fun n => n ≠ "" && n ≠ ".") =
      [String.ofList last ++ suffix] := by
    have hlong : 1 < (String.ofList last ++ suffix).length := by
      rw [String.length_append]
      omega
    have hempty : String.ofList last ++ suffix ≠ "" := fun h => by simp [h] at hlong
    have hdot : String.ofList last ++ suffix ≠ "." := fun h => by
      rw [h] at hlong
      exact absurd hlong (by decide)
    simp [hempty, hdot]
  have hpath : ofText (s ++ suffix) =
      child ⟨rootOf s.toList, (before.map String.ofList).filter fun n => n ≠ "" && n ≠ "."⟩
        (String.ofList last ++ suffix) := by
    rw [ofText, splitText, String.toList_append, rootOf_append fun h => hs (List.mem_of_head? h),
      happend _ hs, child,
      List.map_append, List.filter_append, List.map_singleton, String.ofList_append,
      String.ofList_toList, hkept]
  rw [hpath, join_child]

/-! ## Characters -/

variable {c : Char}

/-- A character of a path is in its root or in one of its names. -/
lemma mem_text (hslash : c ≠ '/') (hdot : c ≠ '.') {p : Path} :
    c ∈ p.text.toList ↔ c ∈ p.root.toList ∨ ∃ n ∈ p.names, c ∈ n.toList := by
  have hjoined : ∀ names : List String,
      c ∈ (String.intercalate "/" names).toList ↔ ∃ n ∈ names, c ∈ n.toList := by
    intro names
    rw [String.toList_intercalate]
    induction names with
    | nil => simp
    | cons n rest ih =>
      cases rest with
      | nil => simp
      | cons m rest =>
        rw [List.map_cons, List.map_cons, List.intercalate_cons_cons]
        rw [List.map_cons] at ih
        rw [List.mem_append, List.mem_append, ih]
        simp [hslash]
  rw [text]
  split
  · rename_i hempty
    simp only [Bool.and_eq_true, String.isEmpty_iff, List.isEmpty_iff] at hempty
    simp [hempty.1, hempty.2, hdot]
  · rw [String.toList_append, List.mem_append, hjoined]

/-- The characters of the path of a name in a directory are those of the name, and those of the
directory unless the name has a root of its own. -/
theorem mem_join_ofText (hslash : c ≠ '/') (hdot : c ≠ '.') (dir : Path) (s : String) :
    c ∈ (dir.join (ofText s)).text.toList ↔
      c ∈ s.toList ∨ rootOf s.toList = "" ∧ c ∈ dir.text.toList := by
  have hroot : c ∉ (rootOf s.toList).toList := by
    unfold rootOf
    split <;> simp [hslash]
  have hnames : (∃ n ∈ (ofText s).names, c ∈ n.toList) ↔ c ∈ s.toList := by
    rw [← mem_splitChars hslash]
    constructor
    · rintro ⟨n, hn, hc⟩
      obtain ⟨piece, hpiece, rfl⟩ := List.mem_map.mp (List.mem_filter.mp hn).1
      exact ⟨piece, hpiece, by simpa using hc⟩
    · rintro ⟨piece, hpiece, hc⟩
      refine ⟨String.ofList piece, List.mem_filter.mpr ⟨List.mem_map_of_mem hpiece, ?_⟩,
        by simpa using hc⟩
      have hempty : String.ofList piece ≠ "" := fun h => by
        rw [← String.ofList_toList (s := ""), String.ofList_inj] at h
        simp [h] at hc
      have hother : String.ofList piece ≠ "." := fun h => by
        rw [← String.ofList_toList (s := "."), String.ofList_inj] at h
        simp [h, hdot] at hc
      simp [hempty, hother]
  rw [join]
  split
  · rename_i hempty
    have hempty : rootOf s.toList = "" := by simpa [ofText] using hempty
    rw [mem_text hslash hdot, mem_text hslash hdot]
    simp only [List.mem_append, or_and_right, exists_or, hnames, hempty, true_and]
    rw [← or_assoc, or_comm]
  · rename_i hempty
    have hempty : rootOf s.toList ≠ "" := by simpa [ofText] using hempty
    rw [mem_text hslash hdot, hnames]
    simp [ofText, hroot, hempty]

/-! ## Null characters -/

lemma hasNull_iff {p : Path} : p.hasNull = true ↔ '\x00' ∈ p.text.toList := by
  rw [hasNull, List.contains_iff_mem]

/-- No file can have a name in a directory: there would be a null character in its path. -/
def Barred (dir : Path) (name : String) : Prop := '\x00' ∈ (dir.join (ofText name)).text.toList

lemma barred_iff {dir : Path} {name : String} : dir.Barred name ↔
    '\x00' ∈ name.toList ∨ rootOf name.toList = "" ∧ '\x00' ∈ dir.text.toList :=
  mem_join_ofText (by decide) (by decide) dir name

variable {dir : Path} {name more : String}

/-- A longer name is barred as well. -/
lemma Barred.append (h : dir.Barred name) (hm : more.toList.head? ≠ some '/') :
    dir.Barred (name ++ more) := by
  rw [barred_iff] at h ⊢
  rw [String.toList_append, rootOf_append hm, List.mem_append]
  exact h.imp .inl id

/-- A suffix without null characters makes no difference. -/
lemma barred_append (hm : more.toList.head? ≠ some '/') (hc : '\x00' ∉ more.toList) :
    dir.Barred (name ++ more) ↔ dir.Barred name := by
  rw [barred_iff, barred_iff, String.toList_append, rootOf_append hm, List.mem_append,
    or_iff_left hc]

end Path

end StateAtlas
