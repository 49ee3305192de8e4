import StateAtlas.Code.Source
import StateAtlas.CommandLine.Run

set_option autoImplicit false

/-!
# The program

Carries out a command line in the working directory: reads the files that it names, lets the
library do the work, and writes the files that the library made.

## Main definitions

* `main` — the program.
-/

namespace StateAtlas

/-- The number of the error that the system gives for reading a directory. -/
def directoryError : UInt32 := FileError.isDirectory.description.1.toUInt32

/-- Puts what stands at a path of the working directory into a file store. -/
def fetch (files : FileStore) (p : Path) : IO FileStore := do
  let files := (files.makeDirectories p.parent).toOption.getD files
  try
    let text ← IO.FS.readFile p.text
    return (files.write p text).toOption.getD files
  catch
    | .inappropriateType _ code _ =>
      if code = directoryError then return (files.makeDirectory p).toOption.getD files
      else return files
    | _ => return files

/-- The paths that a command line reads. -/
def pathsRead (words : List String) : List Path :=
  match CommandRequest.parse words with
  | .ok (.explore target s) => target :: s.config.toList
  | _ => []

/-- Writes the files that differ from those before. -/
def store (before after : FileStore) : IO Unit := do
  for (name, content) in after.files do
    unless before.files.contains (name, content) do
      IO.FS.createDirAll (Path.ofText name).parent.text
      IO.FS.writeFile name content

/-- The exit status of a command, and what it says if it is left without one. -/
def statusOf : CommandStatus → UInt32 × String
  | .returned n | .stopped n => (n.toUInt32, "")
  | .crashed (.fault f) => (1, f.message ++ "\n")
  | .crashed (.interrupted type message) => (130, type.name ++ ": " ++ message ++ "\n")
  | .crashed (.inaccessible e p) => (1, e.message p ++ "\n")
  | .crashed .unfinished => (1, "The search used up its moves.\n")

end StateAtlas

open StateAtlas

/-- Carries out a command line. -/
def main (words : List String) : IO UInt32 := do
  let files ← (pathsRead words).foldlM fetch .empty
  let o := Workplace.run ⟨files, .empty, fun _ text => Source.compile? text⟩ words
  store files o.surroundings.files
  IO.print o.output
  for r in o.surroundings.log do
    IO.eprintln r.text
  let (status, last) := statusOf o.status
  IO.eprint (o.errors ++ last)
  return status
