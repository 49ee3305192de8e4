import StateAtlas.File.Path
import StateAtlas.Text.Quoted

set_option autoImplicit false

/-!
# The file store

Files and directories below a working directory, as a value. A place in the store is the list of
names that leads to it; following a path checks that every name on the way is a directory.

## Main definitions

* `StateAtlas.FileStore` — the files and directories.
* `FileStore.refusal?` — what the system refuses, whatever stands in the store.
* `FileStore.makeDirectories` — creates a directory with all directories above it.
* `FileStore.write`, `FileStore.read` — the contents of files.
* `StateAtlas.FileError` — why an access failed, with its text.
-/

namespace StateAtlas

/-- Why an access to the file store failed. -/
inductive FileError where
  | notFound
  | exists
  | notDirectory
  | isDirectory
  | nameTooLong
  /-- Another error of the system, with its number and its text. -/
  | system (number : Nat) (text : String)
  deriving DecidableEq, Repr

/-- The number and the text of an error. -/
def FileError.description : FileError → Nat × String
  | .notFound => (2, "No such file or directory")
  | .exists => (17, "File exists")
  | .notDirectory => (20, "Not a directory")
  | .isDirectory => (21, "Is a directory")
  | .nameTooLong => (36, "File name too long")
  | .system number text => (number, text)

/-- The text of an error at a path. -/
def FileError.message (e : FileError) (path : Path) : String :=
  let (number, text) := e.description
  "[Errno " ++ toString number ++ "] " ++ text ++ ": " ++ Quoted.text path.text

/-- What stands at a place: the contents of a file, or a directory. -/
inductive FileNode where
  | file (content : String)
  | directory
  deriving DecidableEq, Repr

/-- The files and directories below the working directory, in order of creation, and what the
system refuses for reasons of its own. -/
structure FileStore where
  entries : List (List String × FileNode)
  /-- For each file that will be saved, in order, the error with which this is refused and the path
  that the error is about; files for which there is no error here are not refused. -/
  refusals : List (Option (FileError × Path))
  deriving Repr, Inhabited

namespace FileStore

/-- The store with nothing in it. -/
def empty : FileStore := ⟨[], []⟩

/-- Why the system refuses that the next file is saved, if it does. -/
def refusal? (s : FileStore) : Option (FileError × Path) := s.refusals.head?.join

/-- The store when one more file is to be saved. -/
def asked (s : FileStore) : FileStore := { s with refusals := s.refusals.tail }

/-- What stands at a place; the working directory and what lies above it are directories. -/
def node? (s : FileStore) (place : List String) : Option FileNode :=
  if place.all (· == "..") || place == ["/"] then some .directory
  else (s.entries.find? fun e => e.1 = place).map Prod.snd

/-- Puts a node at a place. -/
def put (s : FileStore) (place : List String) (node : FileNode) : FileStore :=
  if s.entries.any fun e => e.1 = place then
    { s with entries := s.entries.map fun e => if e.1 = place then (place, node) else e }
  else { s with entries := s.entries ++ [(place, node)] }

/-- The place one name further. -/
def descend (place : List String) (name : String) : List String :=
  if name == ".." then
    match place.getLast? with
    | some last => if last == ".." || last == "/" then place ++ [".."] else place.dropLast
    | none => [".."]
  else place ++ [name]

/-- Follows names from a place that must be a directory; the last name need not exist. -/
def follow (s : FileStore) (place : List String) : List String → Except FileError (List String)
  | [] => .ok place
  | name :: rest =>
    match s.node? place with
    | none => .error .notFound
    | some (.file _) => .error .notDirectory
    | some .directory =>
      if 255 < name.utf8ByteSize then .error .nameTooLong
      else s.follow (descend place name) rest

/-- The place a path leads to. -/
def locate (s : FileStore) (p : Path) : Except FileError (List String) :=
  s.follow (if p.root.isEmpty then [] else ["/"]) p.names

/-- What stands at the place a path leads to. -/
def find? (s : FileStore) (p : Path) : Option FileNode :=
  match s.locate p with
  | .ok place => s.node? place
  | .error _ => none

/-- Whether a path leads to a directory. -/
def isDirectory (s : FileStore) (p : Path) : Bool := s.find? p == some .directory

/-- Creates one directory. -/
def makeDirectory (s : FileStore) (p : Path) : Except FileError FileStore :=
  match s.locate p with
  | .error e => .error e
  | .ok place => if (s.find? p).isSome then .error .exists else .ok (s.put place .directory)

/-- Accepts a failure to create a directory that is there already. -/
def unlessDirectory (s : FileStore) (p : Path) (e : FileError) :
    Except (FileError × Path) FileStore :=
  if s.isDirectory p then .ok s else .error (e, p)

/-- Creates a directory and, as long as `depth` allows, the directories above it. -/
def makeAbove (s : FileStore) (p : Path) : Nat → Except (FileError × Path) FileStore
  | 0 =>
    match s.makeDirectory p with
    | .ok s => .ok s
    | .error e => s.unlessDirectory p e
  | depth + 1 =>
    match s.makeDirectory p with
    | .ok s => .ok s
    | .error .notFound =>
      match s.makeAbove p.parent depth with
      | .error e => .error e
      | .ok s =>
        match s.makeDirectory p with
        | .ok s => .ok s
        | .error e => s.unlessDirectory p e
    | .error e => s.unlessDirectory p e

/-- Creates a directory with all directories above it; an existing one is left as it is. -/
def makeDirectories (s : FileStore) (p : Path) : Except (FileError × Path) FileStore :=
  s.makeAbove p p.names.length

/-- Writes a file in an existing directory. -/
def write (s : FileStore) (p : Path) (content : String) : Except (FileError × Path) FileStore :=
  match s.locate p with
  | .error e => .error (e, p)
  | .ok place =>
    match s.find? p with
    | some .directory => .error (.isDirectory, p)
    | _ => .ok (s.put place (.file content))

/-- The contents of a file. -/
def read (s : FileStore) (p : Path) : Except FileError String :=
  match s.locate p with
  | .error e => .error e
  | .ok _ =>
    match s.find? p with
    | some (.file content) => .ok content
    | some .directory => .error .isDirectory
    | none => .error .notFound

/-- The files with their paths, in order of creation. -/
def files (s : FileStore) : List (String × String) :=
  s.entries.filterMap fun (place, node) =>
    match node with
    | .file content => some (String.intercalate "/" place, content)
    | .directory => none

end FileStore

end StateAtlas
