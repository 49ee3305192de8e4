import StateAtlas.Fault

set_option autoImplicit false

/-!
# Tokens of documents

## Main definitions

* `StateAtlas.DocumentFault` — why a document cannot be read.
* `StateAtlas.Directive`, `StateAtlas.Token` — the tokens of a document.
-/

namespace StateAtlas

/-- Why a document cannot be read. -/
inductive DocumentFault where
  /-- It does not have the form of a document. -/
  | malformed
  /-- A scalar in it has no value. -/
  | content (f : Fault)
  deriving DecidableEq, Repr

/-- A line for the reader of a document. -/
inductive Directive where
  | version (major minor : Nat)
  /-- What a handle of tags stands for. -/
  | handle (name expansion : String)
  | other
  deriving DecidableEq, Repr, Inhabited

/-- A token of a document. -/
inductive Token where
  | directive (d : Directive)
  | documentStart
  | documentEnd
  | blockSequenceStart
  | blockMappingStart
  | blockEnd
  | flowSequenceStart
  | flowSequenceEnd
  | flowMappingStart
  | flowMappingEnd
  | flowEntry
  | blockEntry
  | key
  | value
  | alias (name : String)
  | anchor (name : String)
  /-- A tag by its handle and the rest; a tag without handle is complete. -/
  | tag (handle : Option String) (suffix : String)
  | scalar (text : String) (isPlain : Bool)
  | streamEnd
  deriving DecidableEq, Repr, Inhabited

end StateAtlas
