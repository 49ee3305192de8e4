import StateAtlas.Text.Split
import StateAtlas.Yaml.Timestamp

set_option autoImplicit false

/-!
# Tags

A tag says what a node is. Plain scalars without a tag get one by their form.

## Main definitions

* `StateAtlas.Tag` — a tag of the standard repertoire, or any other.
* `StateAtlas.Tag.ofUri` — the tag of a written name.
* `StateAtlas.Tag.ofPlain` — the tag that a plain scalar gets.
-/

namespace StateAtlas

/-- A tag of the standard repertoire, or any other. -/
inductive Tag where
  | null
  | bool
  | int
  | float
  | binary
  | timestamp
  | str
  | seq
  | map
  | set
  /-- A mapping as a list of pairs in order. -/
  | omap
  | pairs
  /-- The key under which other mappings are merged into one. -/
  | merge
  /-- The key of the value that stands for its whole mapping. -/
  | value
  | other (uri : String)
  deriving DecidableEq, Repr, Inhabited

namespace Tag

/-- The common start of the names of the standard repertoire. -/
def standard : String := "tag:yaml.org,2002:"

/-- The standard repertoire with its names. -/
def names : List (String × Tag) :=
  [("null", .null), ("bool", .bool), ("int", .int), ("float", .float), ("binary", .binary),
   ("timestamp", .timestamp), ("str", .str), ("seq", .seq), ("map", .map), ("set", .set),
   ("omap", .omap), ("pairs", .pairs), ("merge", .merge), ("value", .value)]

/-- The tag of a written name. -/
def ofUri (uri : String) : Tag :=
  match names.find? fun e => standard ++ e.1 == uri with
  | some (_, t) => t
  | none => .other uri

/-! ### Forms of plain scalars -/

/-- The words for truth values. -/
def truthWords : List String :=
  ["yes", "Yes", "YES", "no", "No", "NO", "true", "True", "TRUE", "false", "False", "FALSE",
   "on", "On", "ON", "off", "Off", "OFF"]

/-- The words for nothing. -/
def nullWords : List String := ["~", "null", "Null", "NULL", ""]

/-- A text without a sign at its start. -/
def unsigned : List Char → List Char
  | '-' :: cs | '+' :: cs => cs
  | cs => cs

/-- Whether all of some characters, and at least one, are of a class. -/
def isRun (p : Char → Bool) (cs : List Char) : Bool := !cs.isEmpty && cs.all p

/-- Whether a character may stand inside a number. -/
def isNumberChar (c : Char) : Bool := c.isDigit || c == '_'

/-- Whether a text is a digit of a class followed by digits and underscores. -/
def isNumber (first : Char → Bool) : List Char → Bool
  | [] => false
  | c :: cs => first c && cs.all isNumberChar

/-- Whether a text is a number below sixty in one or two digits. -/
def isSixtieth : List Char → Bool
  | [c] => c.isDigit
  | [c, d] => '0' ≤ c && c ≤ '5' && d.isDigit
  | _ => false

/-- Whether a text is a number followed by others below sixty, with colons between them. -/
def isSexagesimal (first : Char → Bool) (cs : List Char) : Bool :=
  match splitText ':' (String.ofList cs) with
  | head :: next :: rest =>
    isNumber first head.toList && (next :: rest).all fun s => isSixtieth s.toList
  | _ => false

/-- Whether a digit is not zero. -/
def isPositiveDigit (c : Char) : Bool := '1' ≤ c && c ≤ '9'

/-- Whether a text has the form of an integer. -/
def isInteger (cs : List Char) : Bool :=
  let cs := unsigned cs
  isNumber isPositiveDigit cs || isSexagesimal isPositiveDigit cs ||
    match cs with
    | ['0'] => true
    | '0' :: 'b' :: ds => isRun (fun c => c == '0' || c == '1' || c == '_') ds
    | '0' :: 'x' :: ds => isRun (fun c => (hexDigit? c).isSome || c == '_') ds
    | '0' :: ds => isRun (fun c => ('0' ≤ c && c ≤ '7') || c == '_') ds
    | _ => false

/-- Whether a text is a signed exponent, or nothing. -/
def isExponent : List Char → Bool
  | [] => true
  | e :: sign :: ds =>
    (e == 'e' || e == 'E') && (sign == '-' || sign == '+') && isRun Char.isDigit ds
  | _ => false

/-- Whether a text has the form of the digits after a point, with or without an exponent. -/
def isFraction (cs : List Char) : Bool := isExponent (cs.dropWhile isNumberChar)

/-- Whether a text has the form of a decimal number with a point, of infinity, or of what is not
a number. -/
def isDecimal (cs : List Char) : Bool :=
  match cutFirst? '.' cs with
  | none => false
  | some ([], after) =>
    (after.head?.any Char.isDigit && isFraction after) ||
      ["inf", "Inf", "INF", "nan", "NaN", "NAN"].contains (String.ofList after)
  | some (before, after) =>
    let whole := unsigned before
    (isNumber Char.isDigit whole && isFraction after) ||
      (isSexagesimal Char.isDigit whole && after.all isNumberChar) ||
      (whole.isEmpty && ["inf", "Inf", "INF"].contains (String.ofList after))

/-- The tag that a plain scalar gets by its form. -/
def ofPlain (s : String) : Tag :=
  let cs := s.toList
  if truthWords.contains s then .bool
  else if isDecimal cs then .float
  else if isInteger cs then .int
  else if s == "<<" then .merge
  else if nullWords.contains s then .null
  else if Timestamp.isTimestamp cs then .timestamp
  else if s == "=" then .value
  else .str

end Tag

end StateAtlas
