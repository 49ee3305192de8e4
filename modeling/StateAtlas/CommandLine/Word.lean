import StateAtlas.CommandLine.Option
import StateAtlas.Text.Digit
import StateAtlas.Text.Quoted

set_option autoImplicit false

/-!
# Words of the command line

Every word of a command line is an option, a plain word, or two dashes, after which all words are
plain. A word that starts with a dash is plain only if it is a negative number or has a blank in
it, and stands for no option.

## Main definitions

* `StateAtlas.CommandRefusal` — why a command line is refused, with its message.
* `StateAtlas.CommandWord` — what a word is.
* `StateAtlas.CommandWord.read`, `StateAtlas.CommandWord.readAll` — what the words are.
-/

namespace StateAtlas

/-- Why a command line is refused. -/
inductive CommandRefusal where
  | ambiguous (word : String) (spellings : List String)
  | missingValue (o : CommandOption)
  | unwantedValue (o : CommandOption) (value : String)
  | notInteger (o : CommandOption) (value : String)
  | noChoice (o : CommandOption) (value : String) (choices : List String)
  | missingTarget
  | unrecognized (words : List String)
  deriving DecidableEq, Repr

/-- The message of a refusal. -/
def CommandRefusal.message : CommandRefusal → String
  | .ambiguous word spellings =>
    "ambiguous option: " ++ word ++ " could match " ++ String.intercalate ", " spellings
  | .missingValue o => "argument " ++ o.title ++ ": expected one argument"
  | .unwantedValue o value =>
    "argument " ++ o.title ++ ": ignored explicit argument " ++ Quoted.text value
  | .notInteger o value => "argument " ++ o.title ++ ": invalid int value: " ++ Quoted.text value
  | .noChoice o value choices =>
    "argument " ++ o.title ++ ": invalid choice: " ++ Quoted.text value ++ " (choose from " ++
      String.intercalate ", " (choices.map Quoted.text) ++ ")"
  | .missingTarget => "the following arguments are required: target"
  | .unrecognized words => "unrecognized arguments: " ++ String.intercalate " " words

/-- What a word of the command line is. -/
inductive CommandWord where
  | plain
  /-- Two dashes, after which all words are plain. -/
  | separator
  /-- An option, in its short or its long spelling. -/
  | option (o : CommandOption) (short : Bool) (value : Option AttachedValue)
  /-- A word that looks like an option and is none. -/
  | unknown
  deriving DecidableEq, Repr

namespace CommandWord

/-- Whether there are characters and all of them are digits. -/
def isNumber (cs : List Char) : Bool := !cs.isEmpty && cs.all fun c => (digitValue? c).isSome

/-- A text without a line feed at its end. -/
def withoutLineEnd (cs : List Char) : List Char :=
  if cs.getLast? = some '\n' then cs.dropLast else cs

/-- Whether a word is a dash and a number, which may have a fraction. -/
def isNegativeNumber : List Char → Bool
  | '-' :: cs =>
    let cs := withoutLineEnd cs
    isNumber cs ||
      match cutFirst? '.' cs with
      | some (whole, fraction) => (whole.isEmpty || isNumber whole) && isNumber fraction
      | none => false
  | _ => false

/-- What a word is that is neither a spelling nor starts with one and an equals sign. -/
def readAbbreviated (word : String) : Except CommandRefusal CommandWord :=
  match CommandOption.candidates word.toList with
  | [] =>
    if isNegativeNumber word.toList || word.contains ' ' then .ok .plain else .ok .unknown
  | [(spelling, o, value)] => .ok (.option o (CommandOption.isShort spelling) value)
  | several => .error (.ambiguous word (several.map Prod.fst))

/-- What a word is that stands before any separator. -/
def read (word : String) : Except CommandRefusal CommandWord :=
  if !CommandOption.startsWith word ['-'] then .ok .plain
  else
    match CommandOption.ofSpelling? word with
    | some o => .ok (.option o (CommandOption.isShort word) none)
    | none =>
      if word = "-" then .ok .plain
      else
        match CommandOption.splitValue word.toList with
        | (_, none) => readAbbreviated word
        | (name, some value) =>
          let name := String.ofList name
          match CommandOption.ofSpelling? name with
          | some o => .ok (.option o (CommandOption.isShort name) (some value))
          | none => readAbbreviated word

/-- What the words of a command line are. -/
def readAll : List String → Except CommandRefusal (List (String × CommandWord))
  | [] => .ok []
  | word :: rest =>
    if word = "--" then .ok ((word, .separator) :: rest.map fun w => (w, .plain))
    else
      match read word with
      | .error r => .error r
      | .ok w => (readAll rest).map fun ws => (word, w) :: ws

/-- Whether words start with a plain one. -/
def startPlain : List (String × CommandWord) → Bool
  | (_, .plain) :: _ => true
  | _ => false

end CommandWord

end StateAtlas
