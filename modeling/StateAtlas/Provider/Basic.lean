import StateAtlas.Config.Basic
import StateAtlas.Log
import StateAtlas.Provider.Function
import StateAtlas.Provider.Variable

set_option autoImplicit false

/-!
# The providers of a configuration

## Main definitions

* `StateAtlas.Provider` — a provider of any kind.
* `StateAtlas.Provider.create` — the provider of a kind, with its targets from a configuration.
* `StateAtlas.Provider.createAll` — the providers a configuration names, in order; one that cannot
  be made is reported and left out.
-/

namespace StateAtlas

/-- A label provider. -/
inductive Provider where
  /-- Labels the first state it is asked about. -/
  | initial (pending : Bool)
  /-- Labels the states in which the program has ended. -/
  | final
  /-- Gives every state a label of its own. -/
  | allDifferent (count : Nat)
  | field (p : FieldProvider)
  | variable (p : VariableProvider)
  | function (p : FunctionProvider)
  /-- Labels explicit raises of watched classes. -/
  | thrown (types : List String)

namespace Provider

/-- The name of the kind of a provider. -/
def kind : Provider → ProviderKind
  | .initial _ => .initial
  | .final => .final
  | .allDifferent _ => .allDifferent
  | .field p => if p.boolean then .booleanField else .integerField
  | .variable p => if p.boolean then .booleanVariable else .positiveVariable
  | .function p =>
    match p.watch with
    | .invoked => .invoked
    | .void => .returnedVoid
    | .boolean => .returnedBoolean
    | .integer => .returnedInteger
    | .locked => .synchronized
  | .thrown _ => .thrown

/-- Whether a provider watches the instructions. -/
def handlesTransitions : Provider → Bool
  | .initial _ | .final | .allDifferent _ => false
  | _ => true

/-- The labels of the state that has just been reached. -/
def stateLabels (view : View) : Provider → Provider × Opinion
  | .initial pending =>
    (.initial false, .ok (if pending then some [⟨"init", "initial"⟩] else none))
  | .final => (.final, .ok (if view.isEnd then some [⟨"end", "end"⟩] else none))
  | .allDifferent count =>
    let name := "_" ++ toString count
    (.allDifferent (count + 1), .ok (some [⟨name, "state " ++ name⟩]))
  | .field p => (.field p, p.stateLabels view.scene)
  | .variable p => let (p, o) := p.stateLabels view; (.variable p, o)
  | .function p => (.function p, .ok none)
  | .thrown types => (.thrown types, .ok none)

/-- The failure of a provider that does not watch the instructions. -/
def missing (p : Provider) (method : String) : Fault :=
  .missingRole (Quoted.text p.kind.name ++ " object") method

/-- Takes note of an instruction that is about to run. -/
def beforeInstruction (s : Scene) (i : Instruction) (p : Provider) : Provider × Except Fault Unit :=
  match p with
  | .field q => (.field (q.beforeInstruction s i), .ok ())
  | .variable q => (.variable (q.beforeInstruction s i), .ok ())
  | .function _ | .thrown _ => (p, .ok ())
  | _ => (p, .error (p.missing "before_instruction"))

/-- The labels of an instruction that explicitly raised a watched class. -/
def thrownLabels (types : List String) (i : Instruction) : Option (List Label) :=
  if i.isRaise then
    match i.exception with
    | some t => if types.contains t.text then some [⟨mangle t.text, t.text⟩] else none
    | none => none
  else none

/-- The labels of a boundary right after an instruction. -/
def breakAfter (s : Scene) (i : Instruction) (p : Provider) : Provider × Opinion :=
  match p with
  | .field q => (p, q.breakAfter s i)
  | .variable q => let (q, o) := q.breakAfter s i; (.variable q, o)
  | .function q => (p, q.breakAfter i)
  | .thrown types => (p, .ok (thrownLabels types i))
  | _ => (p, .error (p.missing "break_after"))

/-- The labels of a boundary right before an instruction. -/
def breakBefore (_s : Scene) (i : Instruction) (p : Provider) : Provider × Opinion :=
  match p with
  | .function q => (p, q.breakBefore i)
  | .field _ | .variable _ | .thrown _ => (p, .ok none)
  | _ => (p, .error (p.missing "break_before"))

instance : LabelProvider Provider where
  handlesTransitions := handlesTransitions
  stateLabels := stateLabels
  beforeInstruction := beforeInstruction
  breakAfter := breakAfter
  breakBefore := breakBefore

/-- Reads every entry of a list, or fails with the first entry that cannot be read. -/
def readAll {α : Type} (read : String → Except ConfigFault α) :
    List String → Except ConfigFault (List α)
  | [] => .ok []
  | s :: rest =>
    match read s with
    | .error f => .error f
    | .ok a =>
      match readAll read rest with
      | .error f => .error f
      | .ok as => .ok (a :: as)

/-- The name of a class of exceptions, which consists of identifiers joined by dots. -/
def exceptionName (s : String) : Except ConfigFault String :=
  if isDotted s then .ok s else .error (.malformedSignature .exception s)

/-- The provider of a kind for the given targets. -/
def ofTargets (k : ProviderKind) (targets : List String) : Except ConfigFault Provider :=
  let ofFields (boolean : Bool) := (readAll FieldSpec.parse targets).map fun fields =>
    Provider.field ⟨boolean, fields, .empty⟩
  let ofVariables (boolean : Bool) := (readAll VariableSpec.parse targets).map fun specs =>
    Provider.variable ⟨boolean, specs, .empty, .empty⟩
  let ofFunctions (watch : FunctionWatch) :=
    (readAll FunctionSpec.parse targets).map fun functions =>
      Provider.function ⟨watch, functions⟩
  match k with
  | .initial => .ok (.initial true)
  | .final => .ok .final
  | .allDifferent => .ok (.allDifferent 0)
  | .booleanField => ofFields true
  | .integerField => ofFields false
  | .booleanVariable => ofVariables true
  | .positiveVariable => ofVariables false
  | .invoked => ofFunctions .invoked
  | .returnedVoid => ofFunctions .void
  | .returnedBoolean => ofFunctions .boolean
  | .returnedInteger => ofFunctions .integer
  | .synchronized => ofFunctions .locked
  | .thrown => (readAll exceptionName targets).map .thrown

/-- The provider of a kind, with its targets from a configuration. -/
def create (config : Config) (k : ProviderKind) : Except Fault Provider :=
  match k with
  | .initial => .ok (.initial true)
  | .final => .ok .final
  | .allDifferent => .ok (.allDifferent 0)
  | k =>
    match config.list k.targetKey with
    | .error f => .error f
    | .ok targets =>
      match ofTargets k targets with
      | .ok p => .ok p
      | .error f => .error (.config f)

/-- The provider of a name. -/
def ofName (config : Config) (name : String) : Except Fault Provider :=
  match ProviderKind.ofName name with
  | .ok k => create config k
  | .error f => .error (.config f)

/-- The report of a provider that cannot be made. -/
def report (name : String) (f : ConfigFault) : LogRecord :=
  ⟨.error, "[LABEL] Provider " ++ name ++ " could not be instantiated: " ++ f.message⟩

/-- The providers of some names, in order, and the reports of those that cannot be made. -/
def createNamed (config : Config) : List String → Except Fault (List Provider × List LogRecord)
  | [] => .ok ([], [])
  | name :: rest =>
    match ofName config name with
    | .ok p =>
      match createNamed config rest with
      | .ok (ps, rs) => .ok (p :: ps, rs)
      | .error f => .error f
    | .error (.config cause) =>
      match createNamed config rest with
      | .ok (ps, rs) => .ok (ps, report name cause :: rs)
      | .error f => .error f
    | .error f => .error f

/-- The providers a configuration names. -/
def createAll (config : Config) : Except Fault (List Provider × List LogRecord) :=
  match config.providerNames with
  | .ok names => createNamed config names
  | .error f => .error f

end Provider

end StateAtlas
