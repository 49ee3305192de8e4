import StateAtlas.Label.Color
import StateAtlas.Label.Registry

set_option autoImplicit false

/-!
# The legend

The legend is a graph with a single node that holds a table: one row for each label, with its
colour and its description. Descriptions are escaped, so that none can end its cell.

## Main definitions

* `StateAtlas.Legend.escape` — a description as it stands in a cell.
* `StateAtlas.Legend.render` — the legend of a list of labels.
-/

namespace StateAtlas

namespace Legend

/-- The escape of a character that has a meaning in markup. -/
def escapeChar (c : Char) : List Char :=
  if c = '&' then "&amp;".toList
  else if c = '<' then "&lt;".toList
  else if c = '>' then "&gt;".toList
  else [c]

/-- A text as it stands in a cell. -/
def escape (s : String) : String := String.ofList (s.toList.flatMap escapeChar)

/-- The lines before the rows. -/
def header : List String :=
  ["digraph legend \x7b",
   "node [colorscheme=\"" ++ Color.scheme ++ "\" shape=plaintext]",
   "\x7b legend_node [",
   "label=<",
   "<table border=\"0\" cellborder=\"0\" cellspacing=\"0\">",
   "<tr><td colspan=\"2\">Legend</td></tr>"]

/-- The lines after the rows. -/
def footer : List String := ["</table>>", "];\x7d", "\x7d"]

/-- The row of a label. -/
def row (color : String) (description : String) : String :=
  "<tr><td width=\"35\" bgcolor=\"" ++ color ++ "\"></td><td align=\"left\">" ++
    escape description ++ "</td></tr>"

/-- The rows of labels whose indices start at a number. -/
def rows (index : Nat) : List Label → List String
  | [] => []
  | l :: ls => row (Color.text index) l.description :: rows (index + 1) ls

/-- The legend of a list of labels. -/
def render (labels : List Label) : String :=
  String.intercalate "\n" (header ++ rows 0 labels ++ footer) ++ "\n"

end Legend

end StateAtlas
