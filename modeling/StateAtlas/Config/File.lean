import StateAtlas.Config.Basic
import StateAtlas.File.Store
import StateAtlas.Yaml.Content

set_option autoImplicit false

/-!
# Configuration files

A configuration file is a document whose root is a mapping; a root that is nothing, zero or empty
counts as a mapping without entries. What a document holds is for its reader to say: what is done
with it afterwards does not depend on the reader.

## Main definitions

* `StateAtlas.DocumentReader` — what makes data of the bytes of documents.
* `StateAtlas.Config.loadBy` — the configuration of a file as a reader reads it.
* `StateAtlas.Config.documentReader` — the reader of this library.
* `StateAtlas.Config.load` — the configuration of a file of a store, by this reader.
-/

namespace StateAtlas

/-- What makes data of the bytes of documents: a datum, or the reason why there is none. -/
abbrev DocumentReader := ByteArray → Content

namespace Config

/-- The configuration that the content of a document makes; an error names the path. -/
def ofContent (path : Path) : Content → Except Fault Config
  | .error .malformed => .error (.config (.malformedFile path.text))
  | .error (.content f) => .error f
  | .ok (.dict entries) => ofEntries entries
  | .ok d => if d.isVoid then .ok default else .error (.config (.notMapping path.text d.typeName))

/-- The configuration of the file at a path, given what comes of opening files and what makes data
of their bytes. -/
def loadBy (reader : DocumentReader) (open? : Path → Except FileError ByteArray) (path : Path) :
    Except Fault Config :=
  match open? path with
  | .ok bytes => ofContent path (reader bytes)
  | .error e => .error (.config (.unreadable path.text (e.message path)))

/-! ### The reader of this library -/

/-- A text in which every line ends with a line feed. -/
def unifyLines : List Char → List Char
  | '\r' :: '\n' :: cs => '\n' :: unifyLines cs
  | '\r' :: cs => '\n' :: unifyLines cs
  | c :: cs => c :: unifyLines cs
  | [] => []

/-- Whether a character may stand in a document. -/
def isDocumentChar (c : Char) : Bool :=
  let n := c.toNat
  n == 9 || n == 10 || n == 13 || (32 ≤ n && n ≤ 126) || n == 0x85 || (0xa0 ≤ n && n ≤ 0xd7ff) ||
    (0xe000 ≤ n && n ≤ 0xfffd) || 0x10000 ≤ n

/-- The datum of the text of a file. -/
def documentOf (s : String) : Content :=
  let cs := unifyLines s.toList
  if cs.all isDocumentChar then Datum.ofDocument (String.ofList cs) else .error .malformed

/-- The reader of this library: the bytes of a document are a text in UTF-8. -/
def documentReader : DocumentReader := fun bytes =>
  match String.fromUTF8? bytes with
  | some s => documentOf s
  | none => .error (.content .undecodable)

/-- The configuration of the text of a file. -/
def ofText (path : Path) (s : String) : Except Fault Config := ofContent path (documentOf s)

/-- The configuration of the bytes of a file. -/
def ofBytes (path : Path) (bytes : ByteArray) : Except Fault Config :=
  ofContent path (documentReader bytes)

/-- The configuration of a file of a store. -/
def load (files : FileStore) (path : Path) : Except Fault Config :=
  loadBy documentReader (fun p => (files.read p).map String.toUTF8) path

end Config

end StateAtlas
