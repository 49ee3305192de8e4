import StateAtlas.Text.Quoted

set_option autoImplicit false

/-!
# Faults

What can go wrong while a run is set up or carried out, by cause. The wording of each cause is
fixed in one place, the `message` functions.

## Main definitions

* `StateAtlas.ConfigFault` — a configuration that cannot be used.
* `StateAtlas.Fault` — every cause for which an operation of the library stops.
-/

namespace StateAtlas

/-- The kinds of signature a configuration names parts of a program with. -/
inductive SignatureKind where
  | field
  | function
  | variable
  | exception
  deriving DecidableEq, Repr

/-- The word for a kind of signature. -/
def SignatureKind.word : SignatureKind → String
  | .field => "field"
  | .function => "function"
  | .variable => "variable"
  | .exception => "exception"

/-- Why a configuration cannot be used. -/
inductive ConfigFault where
  /-- The value of a key, given by its quoted text, is not an integer. -/
  | notInteger (key quoted : String)
  | unknownFormats (names : List String)
  | unknownProvider (name : String)
  | fieldWithoutOwner (signature : String)
  | malformedSignature (kind : SignatureKind) (signature : String)
  | unreadable (path reason : String)
  | malformedFile (path : String)
  | notMapping (path typeName : String)
  deriving DecidableEq, Repr

/-- The text of a cause. -/
def ConfigFault.message : ConfigFault → String
  | .notInteger key quoted => key ++ " must be an integer, got " ++ quoted
  | .unknownFormats names => "Unknown output format(s): " ++ String.intercalate ", " names
  | .unknownProvider name => "Unknown label provider: " ++ name
  | .fieldWithoutOwner signature => "Field signature needs an owner: " ++ Quoted.text signature
  | .malformedSignature kind signature =>
    "Malformed " ++ kind.word ++ " signature: " ++ Quoted.text signature
  | .unreadable path reason => "Cannot read configuration " ++ path ++ ": " ++ reason
  | .malformedFile path => "Malformed configuration " ++ path
  | .notMapping path typeName =>
    "Configuration " ++ path ++ " must be a mapping, got " ++ typeName

/-- What is wrong with a date or a time. -/
inductive CalendarFault where
  | year (n : Nat)
  | month
  | day
  | hour
  | minute
  | second
  /-- A time zone too far from the standard one, given by its written distance. -/
  | zone (distance : String)
  deriving DecidableEq, Repr

/-- The text of a cause. -/
def CalendarFault.message : CalendarFault → String
  | .year n => "year " ++ toString n ++ " is out of range"
  | .month => "month must be in 1..12"
  | .day => "day is out of range for month"
  | .hour => "hour must be in 0..23"
  | .minute => "minute must be in 0..59"
  | .second => "second must be in 0..59"
  | .zone distance =>
    "offset must be a timedelta strictly between -timedelta(hours=24) and timedelta(hours=24), " ++
      "not " ++ distance ++ "."

/-- Every cause for which an operation of the library stops. -/
inductive Fault where
  | config (fault : ConfigFault)
  /-- A path was to be made of a value of another type. -/
  | notPath (typeName : String)
  | bytesPath
  /-- Items were to be taken from a value of another type. -/
  | notIterable (typeName : String)
  /-- A path holds a character that no file name may hold. -/
  | nullInPath
  | infiniteInteger
  /-- An integer has too many digits to be written. -/
  | integerTooLong
  /-- An integer has too many digits to be read. -/
  | integerTextTooLong (digits : Nat)
  | integerBeyondFloat
  /-- A function was asked for a value at infinity. -/
  | outsideDomain
  | indexOutOfRange
  | indexTooLarge
  | emptyRange (low high : Int)
  | emptySequence
  | noOption (options : Int)
  /-- A scripted search has no answer left. -/
  | scriptExhausted
  /-- Bytes that are no text in UTF-8. -/
  | undecodable
  /-- A text that is no integer in a base. -/
  | notNumeral (base : Nat) (text : String)
  /-- A text that is no decimal number. -/
  | notReal (text : String)
  /-- A text that is none of the words for truth values. -/
  | notTruthValue (text : String)
  /-- A number without a character. -/
  | emptyNumber
  | notTimestamp
  | calendar (fault : CalendarFault)
  /-- The code of a character beyond the last one. -/
  | notCharacter
  /-- The code of a character beyond 32 bits. -/
  | codeTooLarge
  /-- Data that contain themselves were to be followed to their end. -/
  | tooDeep
  /-- A listener or provider failed on request. -/
  | requested (text : String)
  /-- Something was asked for an attribute that it does not have: a provider for what its role does
  not cover, or a module for its name. -/
  | missingRole (subject name : String)
  deriving DecidableEq, Repr

/-- The text of a cause. -/
def Fault.message : Fault → String
  | .config fault => fault.message
  | .notPath typeName => "expected str, bytes or os.PathLike object, not " ++ typeName
  | .bytesPath =>
    "argument should be a str object or an os.PathLike object returning str, not <class 'bytes'>"
  | .notIterable typeName => Quoted.text typeName ++ " object is not iterable"
  | .nullInPath => "embedded null byte"
  | .infiniteInteger => "cannot convert float infinity to integer"
  | .integerTooLong =>
    "Exceeds the limit (4300 digits) for integer string conversion; " ++
      "use sys.set_int_max_str_digits() to increase the limit"
  | .integerTextTooLong digits =>
    "Exceeds the limit (4300 digits) for integer string conversion: value has " ++
      toString digits ++ " digits; use sys.set_int_max_str_digits() to increase the limit"
  | .integerBeyondFloat => "int too large to convert to float"
  | .outsideDomain => "math domain error"
  | .indexOutOfRange => "list index out of range"
  | .indexTooLarge => "cannot fit 'int' into an index-sized integer"
  | .emptyRange low high => "Empty choice range [" ++ toString low ++ ", " ++ toString high ++ "]"
  | .emptySequence => "Empty choice sequence"
  | .noOption options => "A choice needs at least one option, got " ++ toString options
  | .scriptExhausted => "pop from empty list"
  | .undecodable => ""
  | .notNumeral base text =>
    "invalid literal for int() with base " ++ toString base ++ ": " ++
      String.ofList ((Quoted.text text).toList.take 200)
  | .notReal text => "could not convert string to float: " ++ Quoted.text text
  | .notTruthValue text => Quoted.text text
  | .emptyNumber => "string index out of range"
  | .notTimestamp => "'NoneType' object has no attribute 'groupdict'"
  | .calendar fault => fault.message
  | .notCharacter => "chr() arg not in range(0x110000)"
  | .codeTooLarge => "Python int too large to convert to C int"
  | .tooDeep => "maximum recursion depth exceeded while calling a Python object"
  | .requested text => text
  | .missingRole subject name => subject ++ " has no attribute " ++ Quoted.text name

end StateAtlas
