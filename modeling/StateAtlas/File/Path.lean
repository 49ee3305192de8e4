import StateAtlas.Text.Split

set_option autoImplicit false

/-!
# Paths

A path is a root (none, one slash or two) and a list of names. Empty names and single dots are
left out when a path is read; `..` is kept.

## Main definitions

* `StateAtlas.Path.ofText`, `StateAtlas.Path.text` — reading and writing a path.
* `StateAtlas.Path.join` — a path below another; one with a root of its own replaces the other.
* `StateAtlas.Path.parent`, `StateAtlas.Path.stem` — the path above, and the last name without
  its suffix.
-/

namespace StateAtlas

/-- A file path: its root and its names. -/
structure Path where
  root : String
  names : List String
  deriving DecidableEq, Repr, Inhabited

namespace Path

/-- The number of slashes at the start that make the root: exactly two stay two. -/
def rootOf (s : List Char) : String :=
  match s with
  | '/' :: '/' :: '/' :: _ => "/"
  | '/' :: '/' :: _ => "//"
  | '/' :: _ => "/"
  | _ => ""

/-- Reads a path. -/
def ofText (s : String) : Path where
  root := rootOf s.toList
  names := (splitText '/' s).filter fun n => n ≠ "" && n ≠ "."

/-- The text of a path; without root and names it is a dot. -/
def text (p : Path) : String :=
  if p.root.isEmpty && p.names.isEmpty then "."
  else p.root ++ String.intercalate "/" p.names

/-- Whether there is a null character in a path: no file can be there. -/
@[irreducible]
def hasNull (p : Path) : Bool := p.text.toList.contains '\x00'

/-- A path below another one. -/
def join (p below : Path) : Path :=
  if below.root.isEmpty then { p with names := p.names ++ below.names } else below

/-- The path without its last name. -/
def parent (p : Path) : Path := { p with names := p.names.dropLast }

/-- The last name, or nothing. -/
def name (p : Path) : String := p.names.getLast?.getD ""

/-- A name without its suffix: a suffix starts at a dot that is neither first nor last. -/
def stemOf (name : String) : String :=
  match cutLast? '.' name.toList with
  | some (before, after) =>
    if before.isEmpty || after.isEmpty then name else String.ofList before
  | none => name

/-- The last name without its suffix. -/
def stem (p : Path) : String := stemOf p.name

example : (ofText "a//./b/").text = "a/b" := by decide +kernel
example : (ofText "///x").text = "/x" := by decide +kernel
example : (ofText "a/b.c.d").stem = "b.c" := by decide +kernel

end Path

end StateAtlas
