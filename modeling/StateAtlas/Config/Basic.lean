import StateAtlas.Config.Document
import StateAtlas.Fault
import StateAtlas.File.Path
import StateAtlas.Text.Blank

set_option autoImplicit false

/-!
# Run configurations

A configuration maps dotted keys to data. It names the label providers and their targets, the
output formats and directory, and the limits of the search; a key that is not set has a default.

## Main definitions

* `StateAtlas.Config` — the map from dotted keys to data.
* `StateAtlas.Config.list` — the entries of a list-valued key, in any spelling.
* `StateAtlas.Config.integer` — the integer under a key.
* `StateAtlas.Config.formats`, `StateAtlas.Config.outputDir`, `StateAtlas.Config.depthLimit`,
  `StateAtlas.Config.maxStates`, `StateAtlas.Config.providerNames` — the settings of a run.
* `StateAtlas.Config.override` — a configuration with some keys replaced.
-/

namespace StateAtlas

/-- The formats a labelled state space is written in. -/
inductive OutputFormat where
  | text
  | dot
  deriving DecidableEq, Repr

/-- The name of a format. -/
def OutputFormat.name : OutputFormat → String
  | .text => "text"
  | .dot => "dot"

/-- The format of a name. -/
def OutputFormat.ofName? (s : String) : Option OutputFormat :=
  if s = "text" then some .text else if s = "dot" then some .dot else none

/-- A configuration: dotted keys with their values, in order of first mention. -/
structure Config where
  values : Bindings Datum
  deriving Inhabited

namespace Config

/-- The configuration in which nothing is set. -/
def default : Config := ⟨.empty⟩

/-- The configuration of a document. -/
def ofFields (fields : List (String × Document)) : Config := ⟨Document.flatten fields⟩

/-- The configuration of a mapping of data. -/
def ofEntries (entries : List (Datum × Datum)) : Except Fault Config :=
  match Document.ofEntries entries with
  | .ok fields => .ok (ofFields fields)
  | .error f => .error f

/-- The value of a key. -/
def get? (c : Config) (key : String) : Option Datum := c.values.get? key

/-- The value of a key, where nothing counts as not set. -/
def setting? (c : Config) (key : String) : Option Datum :=
  match c.get? key with
  | some .null => none
  | v => v

/-- The trimmed pieces between semicolons that are not empty. -/
def entriesOf (s : String) : List String :=
  ((splitText ';' s).map trim).filter (· ≠ "")

/-- The texts of the items of a list; items that are nothing are left out. -/
def itemTexts? : List Datum → Option (List String)
  | [] => some []
  | .null :: ds => itemTexts? ds
  | d :: ds =>
    match d.shown?, itemTexts? ds with
    | some t, some ts => some (t :: ts)
    | _, _ => none

/-- The entries of a list-valued key: those of its text, or those of the texts of its items. -/
def list (c : Config) (key : String) : Except Fault (List String) :=
  match c.setting? key with
  | none => .ok []
  | some (.list items) | some (.tuple items) =>
    match itemTexts? items with
    | some ts => .ok (ts.flatMap entriesOf)
    | none => .error .integerTooLong
  | some d =>
    match d.shown? with
    | some t => .ok (entriesOf t)
    | none => .error .integerTooLong

/-- The integer a datum stands for: a number towards zero, or a text that reads as an integer.
`none` means that it stands for none. -/
def toInteger (d : Datum) : Except Fault (Option Int) :=
  match d with
  | .bool b => .ok (some (if b then 1 else 0))
  | .int i => .ok (some i)
  | .float x =>
    match Binary.ofFloat x with
    | .infinite _ => .error .infiniteInteger
    | b => .ok b.truncate?
  | .str s => .ok (readInteger? s)
  | .bytes bs =>
    if bs.all (· < 128) then .ok (readInteger? (String.ofList (bs.map fun b => Char.ofNat b.toNat)))
    else .ok none
  | _ => .ok none

/-- The integer under a key, if the key is set. -/
def integer (c : Config) (key : String) : Except Fault (Option Int) :=
  match c.setting? key with
  | none => .ok none
  | some d =>
    match toInteger d with
    | .error f => .error f
    | .ok (some i) => .ok (some i)
    | .ok none =>
      match d.quoted? with
      | some t => .error (.config (.notInteger key t))
      | none => .error .integerTooLong

/-- The names of the label providers. -/
def providerNames (c : Config) : Except Fault (List String) := c.list "label.class"

/-- The path a datum stands for. -/
def toPath (d : Datum) : Except Fault Path :=
  match d with
  | .str s => .ok (Path.ofText s)
  | .bytes _ => .error .bytesPath
  | d => .error (.notPath d.typeName)

/-- The directory of the output files: the working directory unless set. -/
def outputDir (c : Config) : Except Fault Path :=
  match c.get? "label.output_dir" with
  | none => .ok (Path.ofText ".")
  | some d => if d.isVoid then .ok (Path.ofText ".") else toPath d

/-- The output formats: all of them unless set, and for the single entry `both`. -/
def formats (c : Config) : Except Fault (List OutputFormat) :=
  match c.list "label.format" with
  | .error f => .error f
  | .ok names =>
    if names.isEmpty || names = ["both"] then .ok [.text, .dot]
    else
      let unknown := names.filter fun n => (OutputFormat.ofName? n).isNone
      if unknown.isEmpty then .ok (names.filterMap OutputFormat.ofName?)
      else .error (.config (.unknownFormats unknown))

/-- States at this depth or deeper are not expanded. -/
def depthLimit (c : Config) : Except Fault (Option Int) := c.integer "search.depth_limit"

/-- The search stops after this many states. -/
def maxStates (c : Config) : Except Fault (Option Int) := c.integer "search.max_states"

/-- The dotted key of an option name, in which two underscores stand for a dot. -/
def dottedKey : List Char → List Char
  | '_' :: '_' :: cs => '.' :: dottedKey cs
  | c :: cs => c :: dottedKey cs
  | [] => []

/-- A configuration with the given keys replaced; values that are nothing change nothing. -/
def override (c : Config) (values : List (String × Datum)) : Config :=
  ⟨c.values.setAll (values.filter fun e => match e.2 with | .null => false | _ => true)⟩

end Config

end StateAtlas
