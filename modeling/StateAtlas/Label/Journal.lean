import StateAtlas.Config.Basic
import StateAtlas.Label.Legend

set_option autoImplicit false

/-!
# Journals

A journal is what a label writer records of a search. The text journal has a line for every
labelled state; the graph journal has a node for every labelled state and an edge for every
boundary reached; the plain journal has every state, and the names under which it was asked to
write.

## Main definitions

* `StateAtlas.Journal` — a journal of each kind.
* `StateAtlas.Journal.label` — records the labels of a state.
* `StateAtlas.Journal.render` — the text of a journal with the labels of a registry.
-/

namespace StateAtlas

/-- A state with the indices of its labels. -/
structure LabeledState where
  id : Int
  indices : List Nat
  deriving DecidableEq, Repr, Inhabited

namespace LabeledState

/-- The line of a state in the text format. -/
def line (s : LabeledState) : String :=
  toString s.id ++ ": " ++ String.intercalate " " (s.indices.map toString) ++ "\n"

/-- The node of a state in the graph format: filled with the colour of its label, or wedged with
the colours of several. -/
def node (s : LabeledState) : String :=
  match s.indices.map Color.text with
  | [color] => toString s.id ++ " [style=filled fillcolor=" ++ color ++ "]\n"
  | colors => toString s.id ++ " [fillcolor=\"" ++ String.intercalate ":" colors ++ "\"]\n"

end LabeledState

/-- An edge of the graph from one state to another. -/
def edgeText (e : Int × Int) : String := toString e.1 ++ " -> " ++ toString e.2 ++ "\n"

/-- What a label writer records of a search. -/
inductive Journal where
  | text (states : Array LabeledState)
  /-- The state the search is in, the labelled states and the edges. -/
  | graph (cursor : Int) (states : Array LabeledState) (edges : Array (Int × Int))
  /-- All states, and the names under which the journal was to be written. -/
  | plain (states : Array LabeledState) (written : Array String)
  deriving Inhabited

namespace Journal

/-- The empty journal of a format. -/
def ofFormat : OutputFormat → Journal
  | .text => .text #[]
  | .dot => .graph (-1) #[] #[]

/-- The suffix of the main file. -/
def suffix : Journal → String
  | .text _ => ".lab"
  | .graph .. => ".dot"
  | .plain .. => ".rec"

/-- The recorded states. -/
def states : Journal → Array LabeledState
  | .text states | .graph _ states _ | .plain states _ => states

/-- Records the labels of a state; only the plain journal records states without labels. -/
def label (j : Journal) (s : LabeledState) : Journal :=
  match j with
  | .text states => if s.indices.isEmpty then j else .text (states.push s)
  | .graph cursor states edges =>
    if s.indices.isEmpty then j else .graph cursor (states.push s) edges
  | .plain states written => .plain (states.push s) written

/-- Records the step to a state. -/
def advance (j : Journal) (id : Int) : Journal :=
  match j with
  | .graph cursor states edges => .graph id states (edges.push (cursor, id))
  | j => j

/-- Records that the search is in a state again. -/
def move (j : Journal) (id : Int) : Journal :=
  match j with
  | .graph _ states edges => .graph id states edges
  | j => j

/-- The labels of a registry with their indices, each followed by a blank. -/
def enumerate (index : Nat) : List Label → String
  | [] => ""
  | l :: ls => toString index ++ "=\"" ++ l.name ++ "\" " ++ enumerate (index + 1) ls

/-- The text of a journal with the labels of a registry. -/
def render (j : Journal) (labels : List Label) : String :=
  match j with
  | .text states =>
    enumerate 0 labels ++ "\n" ++ String.join (states.toList.map LabeledState.line)
  | .graph _ states edges =>
    "digraph statespace \x7b\n" ++ "node [colorscheme=\"" ++ Color.scheme ++ "\" style=wedged]\n" ++
      String.join (states.toList.map LabeledState.node) ++
      String.join (edges.toList.map edgeText) ++ "\x7d\n"
  | .plain .. => ""

end Journal

end StateAtlas
