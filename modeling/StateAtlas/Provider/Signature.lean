import StateAtlas.Fault
import StateAtlas.Program.Instruction
import StateAtlas.Text.Blank
import StateAtlas.Text.Identifier
import StateAtlas.Text.Wildcard
import StateAtlas.Text.Word

set_option autoImplicit false

/-!
# Target signatures

A configuration names parts of the explored program by signatures: a field as `module.name` or
`module.Class.name`, functions by a wildcard pattern over `module.qualname`, a local variable as
`function:name`, and an exception by the name of its class. Labels contain signatures in a mangled
form of ASCII letters, digits and underscores.

## Main definitions

* `StateAtlas.mangle` — the mangled form of a signature.
* `StateAtlas.FieldSpec`, `StateAtlas.FunctionSpec`, `StateAtlas.VariableSpec` — the signatures,
  each with `parse`.
* `FieldSpec.covers`, `FunctionSpec.covers` — whether an instruction or a function is meant.
* `VariableSpec.find?` — the innermost binding of a variable.
-/

namespace StateAtlas

/-- Whether a character may stand in a label. -/
def isLabelChar (c : Char) : Bool :=
  ('0' ≤ c && c ≤ '9') || ('A' ≤ c && c ≤ 'Z') || ('a' ≤ c && c ≤ 'z') || c == '_'

/-- A signature with an underscore for every character that may not stand in a label. -/
def mangle (s : String) : String :=
  String.ofList (s.toList.map fun c => if isLabelChar c then c else '_')

/-- Whether a text consists of identifiers joined by dots. -/
def isDotted (s : String) : Bool := (splitText '.' s).all isIdentifier

/-- A module variable or class attribute. -/
structure FieldSpec where
  signature : String
  owner : String
  name : String
  deriving DecidableEq, Repr

namespace FieldSpec

/-- Reads the signature of a field: an owner and a name, all parts identifiers. -/
def parse (text : String) : Except ConfigFault FieldSpec :=
  let signature := trim text
  match cutLast? '.' signature.toList with
  | none => .error (.fieldWithoutOwner signature)
  | some (owner, name) =>
    if owner.isEmpty then .error (.fieldWithoutOwner signature)
    else if isDotted signature then .ok ⟨signature, String.ofList owner, String.ofList name⟩
    else .error (.malformedSignature .field signature)

/-- Whether an instruction may store to the field: it writes the name in the owner, or in an
object known only when it runs. -/
def covers (spec : FieldSpec) (s : Scene) (i : Instruction) : Bool :=
  match i.storedField? s with
  | none => false
  | some (owner, name) =>
    name.text? == some spec.name &&
      match owner with
      | none => true
      | some owner => owner == spec.owner

end FieldSpec

/-- A pattern over qualified names of functions. -/
structure FunctionSpec where
  pattern : String
  deriving DecidableEq, Repr

namespace FunctionSpec

/-- The characters of a pattern. -/
def isPatternChar (c : Char) : Bool :=
  wordCharacters.contains c || ['.', '<', '>', '*', '?', '[', ']', '!', '-'].contains c

/-- Reads a pattern. -/
def parse (text : String) : Except ConfigFault FunctionSpec :=
  let pattern := trim text
  if pattern.isEmpty || !(pattern.toList.all isPatternChar) then
    .error (.malformedSignature .function pattern)
  else .ok ⟨pattern⟩

/-- Whether a function is meant. -/
def covers (spec : FunctionSpec) (function : String) : Bool :=
  Wildcard.agrees spec.pattern function

end FunctionSpec

/-- A local variable of the functions of a pattern. -/
structure VariableSpec where
  signature : String
  function : FunctionSpec
  name : String
  deriving DecidableEq, Repr

namespace VariableSpec

/-- Reads the signature of a variable: a pattern, a colon and an identifier. -/
def parse (text : String) : Except ConfigFault VariableSpec :=
  let signature := trim text
  match cutFirst? ':' signature.toList with
  | none => .error (.malformedSignature .variable signature)
  | some (function, name) =>
    let name := trim (String.ofList name)
    if isIdentifier name then
      match FunctionSpec.parse (String.ofList function) with
      | .ok function => .ok ⟨signature, function, name⟩
      | .error f => .error f
    else .error (.malformedSignature .variable signature)

/-- The function and the value of the variable in the first of some frames that is an activation
of a meant function and binds the variable. -/
def findIn? (spec : VariableSpec) (s : Scene) : List FrameId → Option (String × Value)
  | [] => none
  | f :: fs =>
    let function := s.functionName f
    if spec.function.covers function then
      match s.local? f spec.name with
      | some v => some (function, v)
      | none => spec.findIn? s fs
    else spec.findIn? s fs

/-- The innermost binding of the variable on the stack from a frame outwards. -/
def find? (spec : VariableSpec) (s : Scene) (f : Option FrameId) : Option (String × Value) :=
  spec.findIn? s (s.stack f)

end VariableSpec

end StateAtlas
