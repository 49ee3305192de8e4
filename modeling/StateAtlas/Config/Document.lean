import StateAtlas.Data.Bindings
import StateAtlas.Data.Datum
import StateAtlas.Fault

set_option autoImplicit false

/-!
# Configuration documents

A configuration document is a tree: inner nodes are mappings, leaves are values. Flattening joins
the names on the way to a leaf with dots, so that a document means the same however it is nested.

## Main definitions

* `StateAtlas.Document` — a tree of named nodes and leaves.
* `StateAtlas.Document.ofDatum` — the tree of a datum; the keys of mappings become names.
* `StateAtlas.Document.flatten` — the leaves under their dotted names, the last one winning.
-/

namespace StateAtlas

/-- A tree of named nodes with data at its leaves. -/
inductive Document where
  | leaf (value : Datum)
  | node (fields : List (String × Document))
  deriving Inhabited

namespace Document

/-- The name that a key stands for, unless it has too many digits. -/
def nameOf (key : Datum) : Except Fault String :=
  match key.shown? with
  | some name => .ok name
  | none => .error .integerTooLong

mutual

/-- The tree of a datum. A mapping that contains itself has none. -/
def ofDatum : Datum → Except Fault Document
  | .dict entries =>
    match ofEntries entries with
    | .ok fields => .ok (.node fields)
    | .error f => .error f
  | .cycle true => .error .tooDeep
  | d => .ok (.leaf d)

/-- The named trees of the entries of a mapping. -/
def ofEntries : List (Datum × Datum) → Except Fault (List (String × Document))
  | [] => .ok []
  | (k, v) :: es =>
    match nameOf k, ofDatum v, ofEntries es with
    | .error f, _, _ | _, .error f, _ | _, _, .error f => .error f
    | .ok name, .ok tree, .ok rest => .ok ((name, tree) :: rest)

end

mutual

/-- Binds the leaves of named trees, each name after the names above it, and merges the leaves of
every inner tree at once. -/
def flattenFields (above : String) (into : Bindings Datum) :
    List (String × Document) → Bindings Datum
  | [] => into
  | (name, tree) :: rest => flattenFields above (flattenField (above ++ name) into tree) rest

/-- Binds a leaf under its dotted name, or merges the leaves of an inner tree. -/
def flattenField (dotted : String) (into : Bindings Datum) : Document → Bindings Datum
  | .leaf value => into.set dotted value
  | .node fields => into.merge (flattenFields (dotted ++ ".") .empty fields)

end

/-- The leaves of named trees under their dotted names. -/
def flatten (fields : List (String × Document)) : Bindings Datum :=
  flattenFields "" .empty fields

end Document

end StateAtlas
