import StateAtlas.CommandLine.Word
import StateAtlas.File.Path
import StateAtlas.Number.Decimal

set_option autoImplicit false

/-!
# Arguments of the command line

A command line names the program to explore and sets options. Options take effect from left to
right, so that the first one that is wrong, or that asks for help, decides.

## Main definitions

* `StateAtlas.CommandSettings` — what the options say.
* `StateAtlas.CommandRequest` — what a command line asks for.
* `StateAtlas.CommandRequest.parse` — reads a command line.
-/

namespace StateAtlas

/-- What the options of a command line say. -/
structure CommandSettings where
  config : Option Path
  outputDir : Option Path
  /-- The name of an output format, or of all formats. -/
  format : Option String
  depthLimit : Option Int
  maxStates : Option Int
  verbose : Bool
  deriving DecidableEq, Repr

namespace CommandSettings

/-- The settings of a command line without options. -/
def none : CommandSettings := ⟨.none, .none, .none, .none, .none, false⟩

/-- The names a format is chosen by. -/
def formatNames : List String := ["text", "dot", "both"]

/-- The settings after an option with a value. -/
def set (s : CommandSettings) (o : CommandOption) (value : String) :
    Except CommandRefusal CommandSettings :=
  match o with
  | .config => .ok { s with config := some (Path.ofText value) }
  | .outputDir => .ok { s with outputDir := some (Path.ofText value) }
  | .format =>
    if formatNames.contains value then .ok { s with format := some value }
    else .error (.noChoice o value formatNames)
  | .depthLimit =>
    match readInteger? value with
    | some i => .ok { s with depthLimit := some i }
    | .none => .error (.notInteger o value)
  | .maxStates =>
    match readInteger? value with
    | some i => .ok { s with maxStates := some i }
    | .none => .error (.notInteger o value)
  | .help | .verbose => .error (.unwantedValue o value)

end CommandSettings

/-- What a command line asks for. -/
inductive CommandRequest where
  | help
  | explore (target : Path) (settings : CommandSettings)
  deriving DecidableEq, Repr

namespace CommandRequest

/-- What is known of a command line while it is read. -/
structure Draft where
  target : Option String
  settings : CommandSettings
  /-- The words that have no meaning. -/
  extra : List String

/-- Keeps a word that has no meaning. -/
def Draft.leave (d : Draft) (word : String) : Draft := { d with extra := d.extra ++ [word] }

/-- The request of a command line that has been read. -/
def ofDraft (d : Draft) : Except CommandRefusal CommandRequest :=
  match d.target, d.extra with
  | none, _ => .error .missingTarget
  | some target, [] => .ok (.explore (Path.ofText target) d.settings)
  | some _, words => .error (.unrecognized words)

/-- The request of a short spelling that asks for help, followed in its word by further letters,
each of which may be an option of its own; only an option that cannot take what follows it keeps
the help from being given. -/
def helpWith (morePlain : Bool) : List Char → Except CommandRefusal CommandRequest
  | [] => .ok .help
  | '-' :: cs => .error (.unwantedValue .help (String.ofList ('-' :: cs)))
  | c :: cs =>
    match CommandOption.ofSpelling? (String.ofList ['-', c]) with
    | none => .ok .help
    | some o =>
      if o.takesValue then
        if cs.isEmpty && !morePlain then .error (.missingValue o) else .ok .help
      else
        match cs with
        | '=' :: value => .error (.unwantedValue o (String.ofList value))
        | cs => helpWith morePlain cs

/-- The request of an option without a value that has a value in its word. -/
def ofUnwanted (o : CommandOption) (short : Bool) (value : AttachedValue) (morePlain : Bool) :
    Except CommandRefusal CommandRequest :=
  if short && !value.marked && !value.text.isEmpty then helpWith morePlain value.text
  else .error (.unwantedValue o (String.ofList value.text))

/-- The request of the rest of a command line. -/
def collect (d : Draft) : List (String × CommandWord) → Except CommandRefusal CommandRequest
  | [] => ofDraft d
  | (word, .unknown) :: rest => collect (d.leave word) rest
  | (word, .plain) :: rest =>
    match d.target, rest with
    | some _, rest => collect (d.leave word) rest
    | none, (_, .separator) :: rest => collect { d with target := some word } rest
    | none, rest => collect { d with target := some word } rest
  | (word, .separator) :: rest =>
    match d.target, rest with
    | none, (target, .plain) :: rest => collect { d with target := some target } rest
    | _, rest => collect (d.leave word) rest
  | (_, .option o short (some value)) :: rest =>
    if o.takesValue then
      match d.settings.set o (String.ofList value.text) with
      | .error r => .error r
      | .ok settings => collect { d with settings } rest
    else ofUnwanted o short value (CommandWord.startPlain rest)
  | (_, .option o _ none) :: rest =>
    match o, rest with
    | .help, _ => .ok .help
    | .verbose, rest => collect { d with settings := { d.settings with verbose := true } } rest
    | o, (value, .plain) :: rest =>
      match d.settings.set o value with
      | .error r => .error r
      | .ok settings => collect { d with settings } rest
    | o, _ => .error (.missingValue o)

/-- Reads a command line. -/
def parse (words : List String) : Except CommandRefusal CommandRequest :=
  match CommandWord.readAll words with
  | .error r => .error r
  | .ok ws => collect ⟨none, .none, []⟩ ws

end CommandRequest

end StateAtlas
