import StateAtlas.Data.Bindings
import StateAtlas.Text.Split

set_option autoImplicit false

/-!
# Options of the command line

An option has one or two spellings: a short one with one dash and one letter, a long one with two
dashes. Some options take a value.

## Main definitions

* `StateAtlas.CommandOption` — the options.
* `StateAtlas.CommandOption.table` — all spellings, in the order in which they are listed.
* `StateAtlas.CommandOption.candidates` — the options a word may stand for when it is no spelling
  itself.
-/

namespace StateAtlas

/-- An option of the command line. -/
inductive CommandOption where
  | help
  | config
  | outputDir
  | format
  | depthLimit
  | maxStates
  | verbose
  deriving DecidableEq, Repr

/-- A value in the same word as its option. -/
structure AttachedValue where
  text : List Char
  /-- Whether an equals sign stands before it. -/
  marked : Bool
  deriving DecidableEq, Repr

namespace CommandOption

/-- All options, in the order in which they are listed. -/
def all : List CommandOption :=
  [.help, .config, .outputDir, .format, .depthLimit, .maxStates, .verbose]

/-- The spellings of an option. -/
def spellings : CommandOption → List String
  | .help => ["-h", "--help"]
  | .config => ["-c", "--config"]
  | .outputDir => ["-o", "--output-dir"]
  | .format => ["--format"]
  | .depthLimit => ["--depth-limit"]
  | .maxStates => ["--max-states"]
  | .verbose => ["--verbose"]

/-- Whether an option takes a value. -/
def takesValue : CommandOption → Bool
  | .help | .verbose => false
  | _ => true

/-- What an option is called in messages. -/
def title (o : CommandOption) : String := String.intercalate "/" o.spellings

/-- All spellings with their options. -/
def table : List (String × CommandOption) :=
  all.flatMap fun o => o.spellings.map fun s => (s, o)

/-- The option with a spelling. -/
def ofSpelling? (s : String) : Option CommandOption := Bindings.find? s table

/-- A word up to its first equals sign, and the value after it. -/
def splitValue (word : List Char) : List Char × Option AttachedValue :=
  match cutFirst? '=' word with
  | some (name, value) => (name, some ⟨value, true⟩)
  | none => (word, none)

/-- Whether a text starts with some characters. -/
def startsWith (s : String) (cs : List Char) : Bool := cs.isPrefixOf s.toList

/-- The spellings a word may stand for, with the value that is left of it. A word with two dashes
is the beginning of a long spelling; in a word with one dash the letter is the short spelling and
the rest is its value. -/
def candidates : List Char → List (String × CommandOption × Option AttachedValue)
  | '-' :: '-' :: rest =>
    let (name, value) := splitValue ('-' :: '-' :: rest)
    table.filterMap fun (s, o) => if startsWith s name then some (s, o, value) else none
  | '-' :: letter :: rest =>
    table.filterMap fun (s, o) =>
      if s = String.ofList ['-', letter] then some (s, o, some ⟨rest, false⟩)
      else if startsWith s ('-' :: letter :: rest) then some (s, o, none)
      else none
  | _ => []

/-- Whether a spelling is a short one. -/
def isShort (s : String) : Bool := s.length = 2

end CommandOption

end StateAtlas
