import Mathlib.Tactic.Common
import StateAtlas.File.Store

set_option autoImplicit false

/-!
# Reading what has been written

A file that has been written can be read back, until something else is written to it: neither the
creation of directories nor a file of another name in the same directory makes a difference.

## Main definitions

* `StateAtlas.Path.child` — the path of a name in a directory.
* `StateAtlas.FileStore.Extends` — whatever is in one store is in the other one, too.

## Main results

* `StateAtlas.FileStore.read_write` — a file that has been written can be read back.
* `StateAtlas.FileStore.read_of_makeDirectories`, `StateAtlas.FileStore.read_of_write_sibling` — what
  could be read before still can.
-/

namespace StateAtlas

namespace Path

/-- The path of a name in a directory. -/
def child (p : Path) (name : String) : Path := { p with names := p.names ++ [name] }

end Path

namespace FileStore

variable {s t : FileStore} {p : Path} {place : List String} {name content : String}

/-! ## Places -/

/-- What is found in a list of entries after the entries of a key have been replaced. -/
lemma find?_replace (entries : List (List String × FileNode)) (place other : List String)
    (node : FileNode) :
    ((entries.map fun e => if e.1 = place then (place, node) else e).find? fun e =>
        e.1 = other).map Prod.snd =
      if other = place then (entries.find? fun e => e.1 = place).map fun _ => node
      else (entries.find? fun e => e.1 = other).map Prod.snd := by
  induction entries with
  | nil => simp
  | cons e rest ih =>
    rw [List.map_cons, List.find?_cons, List.find?_cons, List.find?_cons]
    by_cases he : e.1 = place
    · by_cases ho : other = place
      · simp [he, ho]
      · have hne : ¬place = other := fun h => ho h.symm
        simpa only [he, if_true, hne, decide_false, if_neg ho] using ih
    · by_cases ho : other = place
      · subst ho
        simp only [he, if_false, decide_false, ih, if_true]
      · simp only [he, ho, if_false] at ih ⊢
        split
        · rfl
        · exact ih

/-- Where there is no directory, a node that has been put is there. -/
lemma node?_put_self (h : s.node? place ≠ some .directory) (node : FileNode) :
    (s.put place node).node? place = some node := by
  unfold node? at h ⊢
  split at h
  · exact absurd rfl h
  · rename_i hplain
    rw [if_neg hplain, put]
    split
    · rename_i hany
      obtain ⟨e, he⟩ := Option.isSome_iff_exists.mp
        (List.find?_isSome.mpr (List.any_eq_true.mp hany))
      rw [find?_replace, if_pos rfl, he]
      rfl
    · rename_i hany
      have hnone : s.entries.find? (fun e => decide (e.1 = place)) = none := by
        rw [List.find?_eq_none]
        exact fun e he hp => hany (List.any_eq_true.mpr ⟨e, he, hp⟩)
      simp [List.find?_append, hnone]

/-- Elsewhere nothing changes. -/
lemma node?_put_of_ne {other : List String} (h : other ≠ place) (node : FileNode) :
    (s.put place node).node? other = s.node? other := by
  unfold node?
  split
  · rfl
  · rw [put]
    split
    · rw [find?_replace, if_neg h]
    · have hne : ¬place = other := fun heq => h heq.symm
      simp [List.find?_append, hne]

/-- Names lead to the same place as long as directories stay directories. -/
lemma follow_mono (h : ∀ x, s.node? x = some .directory → t.node? x = some .directory)
    (names : List String) : ∀ {place q : List String},
    s.follow place names = .ok q → t.follow place names = .ok q := by
  induction names with
  | nil => exact fun hq => hq
  | cons name rest ih =>
    intro place q hq
    rw [follow] at hq ⊢
    split at hq
    · simp at hq
    · simp at hq
    · rename_i hd
      rw [h _ hd]
      split at hq
      · simp at hq
      · rename_i hlength
        simp only [hlength, if_false]
        exact ih hq

/-- The last name is followed from where the others lead to. -/
lemma follow_concat (names : List String) (name : String) : ∀ {place q : List String},
    s.follow place (names ++ [name]) = .ok q ↔
      ∃ r, s.follow place names = .ok r ∧ s.follow r [name] = .ok q := by
  induction names with
  | nil => simp [follow]
  | cons n rest ih =>
    intro place q
    rw [List.cons_append, follow, follow]
    split
    · simp
    · simp
    · split
      · simp
      · exact ih

/-- A name in a directory leads to a place right below it. -/
lemma locate_child (hn : name ≠ "..") :
    s.locate (p.child name) = .ok place ↔ ∃ q, s.locate p = .ok q ∧
      s.node? q = some .directory ∧ name.utf8ByteSize ≤ 255 ∧ place = q ++ [name] := by
  have hlast : ∀ q, s.follow q [name] = .ok place ↔
      s.node? q = some .directory ∧ name.utf8ByteSize ≤ 255 ∧ place = q ++ [name] := by
    intro q
    rw [follow]
    split
    · rename_i h
      simp [h]
    · rename_i h
      simp [h]
    · rename_i h
      by_cases hlength : 255 < name.utf8ByteSize
      · have hlong : ¬name.utf8ByteSize ≤ 255 := by omega
        simp [hlength, hlong]
      · have hshort : name.utf8ByteSize ≤ 255 := by omega
        have hdescend : descend q name = q ++ [name] := by simp [descend, hn]
        rw [if_neg hlength, hdescend, follow]
        simp [h, hshort, eq_comm]
  rw [locate, locate, Path.child, follow_concat]
  exact exists_congr fun q => and_congr_right fun _ => hlast q

/-! ## Accesses -/

/-- What can be read stands at the place of the path. -/
lemma read_eq_ok : s.read p = .ok content ↔
    ∃ place, s.locate p = .ok place ∧ s.node? place = some (.file content) := by
  rw [read, find?]
  cases s.locate p with
  | error e => simp
  | ok place =>
    cases hnode : s.node? place with
    | none => simp [hnode]
    | some node => cases node <;> simp [hnode]

/-- A file can be written where there is no directory. -/
lemma write_eq_ok : s.write p content = .ok t ↔
    ∃ place, s.locate p = .ok place ∧ s.node? place ≠ some .directory ∧
      t = s.put place (.file content) := by
  rw [write, find?]
  cases s.locate p with
  | error e => simp
  | ok place =>
    cases hnode : s.node? place with
    | none => simp [hnode, eq_comm]
    | some node => cases node <;> simp [hnode, eq_comm]

/-- Directories stay directories where something is put that does not take the place of one. -/
lemma directory_put {node : FileNode} (h : s.node? place ≠ some .directory) (x : List String)
    (hx : s.node? x = some .directory) : (s.put place node).node? x = some .directory := by
  have hne : x ≠ place := by
    rintro rfl
    exact h hx
  rwa [node?_put_of_ne hne]

/-- A file that has been written can be read back. -/
theorem read_write (h : s.write p content = .ok t) : t.read p = .ok content := by
  obtain ⟨place, hplace, hd, rfl⟩ := write_eq_ok.mp h
  exact read_eq_ok.mpr ⟨place, follow_mono (directory_put hd) _ hplace, node?_put_self hd _⟩

/-- What could be read in a directory can still be read when a file of another name has been written
there. -/
theorem read_of_write_sibling {other content' : String} (hname : name ≠ "..") (hother : other ≠ "..")
    (hne : other ≠ name) (h : s.write (p.child name) content = .ok t)
    (hr : s.read (p.child other) = .ok content') : t.read (p.child other) = .ok content' := by
  obtain ⟨place, hplace, hd, rfl⟩ := write_eq_ok.mp h
  obtain ⟨place', hplace', hfile⟩ := read_eq_ok.mp hr
  refine read_eq_ok.mpr ⟨place', follow_mono (directory_put hd) _ hplace', ?_⟩
  obtain ⟨q, hq, -, -, rfl⟩ := (locate_child hname).mp hplace
  obtain ⟨q', hq', -, -, rfl⟩ := (locate_child hother).mp hplace'
  obtain rfl := Except.ok.inj (hq.symm.trans hq')
  rwa [node?_put_of_ne (by simpa using hne)]

/-- What the system refuses makes no difference to what can be read. -/
lemma read_asked : s.asked.read p = s.read p := by
  have hfollow : ∀ (names place : List String),
      s.asked.follow place names = s.follow place names := by
    intro names
    induction names with
    | nil => exact fun _ => rfl
    | cons name rest ih =>
      intro place
      rw [follow, follow, ih]
      rfl
  rw [read, read, locate, locate, hfollow, find?, find?, locate, locate, hfollow]
  rfl

/-! ## Directories -/

/-- Whatever is in one store is in the other one, too. -/
def Extends (s t : FileStore) : Prop :=
  ∀ place node, s.node? place = some node → t.node? place = some node

lemma Extends.refl (s : FileStore) : s.Extends s := fun _ _ h => h

lemma Extends.trans {u : FileStore} (h : s.Extends t) (h' : t.Extends u) : s.Extends u :=
  fun place node hp => h' place node (h place node hp)

/-- What can be read in a store can be read in one that has more. -/
lemma Extends.read (h : s.Extends t) (hr : s.read p = .ok content) : t.read p = .ok content := by
  obtain ⟨place, hplace, hfile⟩ := read_eq_ok.mp hr
  exact read_eq_ok.mpr ⟨place, follow_mono (fun x => h x .directory) _ hplace, h _ _ hfile⟩

lemma extends_makeDirectory (h : s.makeDirectory p = .ok t) : s.Extends t := by
  rw [makeDirectory, find?] at h
  cases hplace : s.locate p with
  | error e => simp [hplace] at h
  | ok place =>
    cases hnode : s.node? place with
    | some node => simp [hplace, hnode] at h
    | none =>
      obtain rfl : s.put place .directory = t := by simpa [hplace, hnode] using h
      intro x node hx
      rwa [node?_put_of_ne (by rintro rfl; simp [hnode] at hx)]

lemma extends_unlessDirectory {e : FileError} (h : s.unlessDirectory p e = .ok t) :
    s.Extends t := by
  rw [unlessDirectory] at h
  split at h
  · obtain rfl := Except.ok.inj h
    exact .refl s
  · simp at h

/-- The creation of a directory with those above it takes nothing away. -/
lemma extends_makeAbove (depth : Nat) : ∀ {s t : FileStore} {p : Path},
    s.makeAbove p depth = .ok t → s.Extends t := by
  induction depth with
  | zero =>
    intro s t p h
    rw [makeAbove] at h
    split at h
    · rename_i hmade
      obtain rfl := Except.ok.inj h
      exact extends_makeDirectory hmade
    · exact extends_unlessDirectory h
  | succ depth ih =>
    intro s t p h
    rw [makeAbove] at h
    split at h
    · rename_i hmade
      obtain rfl := Except.ok.inj h
      exact extends_makeDirectory hmade
    · split at h
      · simp at h
      · rename_i habove
        split at h
        · rename_i hmade
          obtain rfl := Except.ok.inj h
          exact (ih habove).trans (extends_makeDirectory hmade)
        · exact (ih habove).trans (extends_unlessDirectory h)
    · exact extends_unlessDirectory h

/-- What could be read can still be read when directories have been created. -/
theorem read_of_makeDirectories {d : Path} (h : s.makeDirectories d = .ok t)
    (hr : s.read p = .ok content) : t.read p = .ok content :=
  (extends_makeAbove _ h).read hr

end FileStore

end StateAtlas
