import Mathlib.Tactic.Common
import StateAtlas.File.Store

set_option autoImplicit false

/-!
# Files without their contents

Whether a directory can be created, or a file written, depends on the places of the files and
directories alone, and so does where it stands then. Forgetting what the files contain commutes with
both.

## Main definitions

* `StateAtlas.FileStore.blank` — the files and directories without their contents.

## Main results

* `StateAtlas.FileStore.makeDirectories_blank`, `StateAtlas.FileStore.write_blank` — creating
  directories and writing files up to the contents.
-/

namespace StateAtlas

/-- A file without its contents. -/
def FileNode.blank : FileNode → FileNode
  | .file _ => .file ""
  | .directory => .directory

namespace FileStore

/-- The files and directories without their contents. -/
def blank (s : FileStore) : FileStore :=
  { s with entries := s.entries.map fun e => (e.1, e.2.blank) }

variable (s : FileStore)

/-- The system refuses the same. -/
lemma refusal?_blank : s.blank.refusal? = s.refusal? := rfl

lemma asked_blank : s.blank.asked = s.asked.blank := rfl

lemma node?_blank (place : List String) : s.blank.node? place = (s.node? place).map .blank := by
  rw [node?, node?]
  split
  · rfl
  · simp only [blank, List.find?_map, Option.map_map]
    rfl

lemma follow_blank (names : List String) : ∀ place,
    s.blank.follow place names = s.follow place names := by
  induction names with
  | nil => exact fun _ => rfl
  | cons name rest ih =>
    intro place
    rw [follow, follow, node?_blank]
    cases s.node? place with
    | none => rfl
    | some node =>
      cases node with
      | file content => rfl
      | directory =>
        simp only [Option.map_some, FileNode.blank]
        rw [ih]

lemma locate_blank (p : Path) : s.blank.locate p = s.locate p := s.follow_blank _ _

lemma find?_blank (p : Path) : s.blank.find? p = (s.find? p).map .blank := by
  rw [find?, find?, locate_blank]
  cases s.locate p with
  | error e => rfl
  | ok place => exact s.node?_blank place

lemma isDirectory_blank (p : Path) : s.blank.isDirectory p = s.isDirectory p := by
  rw [isDirectory, isDirectory, find?_blank]
  cases s.find? p with
  | none => rfl
  | some node => cases node <;> rfl

lemma put_blank (place : List String) (node : FileNode) :
    (s.put place node).blank = s.blank.put place node.blank := by
  have hany : (s.blank.entries.any fun e => e.1 = place) = s.entries.any fun e => e.1 = place := by
    simp [blank, List.any_map, Function.comp_def]
  rw [put, put, hany]
  split
  · simp only [blank, List.map_map, mk.injEq, and_true]
    refine List.map_congr_left fun e _ => ?_
    simp only [Function.comp_apply]
    split <;> rfl
  · simp [blank]

/-- Creating a directory depends on the places of the files alone. -/
lemma makeDirectory_blank (p : Path) :
    s.blank.makeDirectory p = (s.makeDirectory p).map blank := by
  rw [makeDirectory, makeDirectory, locate_blank]
  cases s.locate p with
  | error e => rfl
  | ok place =>
    simp only [find?_blank, Option.isSome_map]
    split
    · rfl
    · simp [Except.map, put_blank, FileNode.blank]

lemma unlessDirectory_blank (p : Path) (e : FileError) :
    s.blank.unlessDirectory p e = (s.unlessDirectory p e).map blank := by
  rw [unlessDirectory, unlessDirectory, isDirectory_blank]
  split <;> rfl

/-- So does creating the directories above it. -/
lemma makeAbove_blank (depth : Nat) : ∀ (s : FileStore) (p : Path),
    s.blank.makeAbove p depth = (s.makeAbove p depth).map blank := by
  induction depth with
  | zero =>
    intro s p
    rw [makeAbove, makeAbove, makeDirectory_blank]
    cases s.makeDirectory p with
    | ok t => rfl
    | error e => exact s.unlessDirectory_blank p e
  | succ depth ih =>
    intro s p
    rw [makeAbove, makeAbove, makeDirectory_blank]
    cases s.makeDirectory p with
    | ok t => rfl
    | error e =>
      cases e with
      | notFound =>
        simp only [Except.map]
        rw [ih]
        cases s.makeAbove p.parent depth with
        | error e => rfl
        | ok t =>
          simp only [Except.map, makeDirectory_blank]
          cases t.makeDirectory p with
          | ok u => rfl
          | error e => exact t.unlessDirectory_blank p e
      | _ => exact s.unlessDirectory_blank p _

/-- Whether a file can be written, and where it stands then, depends on the places of the others
alone. -/
lemma write_blank (p : Path) (content : String) :
    s.blank.write p "" = (s.write p content).map blank := by
  rw [write, write, locate_blank]
  cases s.locate p with
  | error e => rfl
  | ok place =>
    simp only [find?_blank]
    cases s.find? p with
    | none => simp [Except.map, put_blank, FileNode.blank]
    | some node => cases node <;> simp [Except.map, put_blank, FileNode.blank]

/-- Creating directories depends on the places of the files alone. -/
lemma makeDirectories_blank (p : Path) :
    s.blank.makeDirectories p = (s.makeDirectories p).map blank := s.makeAbove_blank _ p

end FileStore

end StateAtlas
