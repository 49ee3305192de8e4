import StateAtlas.Label.Registry
import StateAtlas.Search.View
import StateAtlas.Fault

set_option autoImplicit false

/-!
# Label providers

A label provider produces labels for states. Every provider is asked for the labels of a new
state; a provider that handles transitions also watches the instructions, and may ask for a state
boundary by returning a set of labels, even an empty one.

## Main definitions

* `StateAtlas.Opinion` — labels, or none, or a failure.
* `StateAtlas.LabelProvider` — what a type of providers answers.
* `StateAtlas.ProviderKind` — the kinds of provider a configuration can name.
-/

namespace StateAtlas

/-- The answer of a provider: `none` is no opinion; the empty set is an opinion. -/
abbrev Opinion := Except Fault (Option (List Label))

/-- What the providers of a type answer; every answer comes with the provider as it is then. -/
class LabelProvider (P : Type) where
  /-- Whether a provider watches the instructions. -/
  handlesTransitions : P → Bool
  /-- The labels of the state that has just been reached. -/
  stateLabels : View → P → P × Opinion
  /-- Takes note of an instruction that is about to run. -/
  beforeInstruction : Scene → Instruction → P → P × Except Fault Unit
  /-- The labels of a boundary right after an instruction. -/
  breakAfter : Scene → Instruction → P → P × Opinion
  /-- The labels of a boundary right before an instruction. -/
  breakBefore : Scene → Instruction → P → P × Opinion

/-- The kinds of provider a configuration can name. -/
inductive ProviderKind where
  | initial
  | final
  | allDifferent
  | booleanField
  | integerField
  | booleanVariable
  | positiveVariable
  | invoked
  | returnedVoid
  | returnedBoolean
  | returnedInteger
  | synchronized
  | thrown
  deriving DecidableEq, Repr, Inhabited

namespace ProviderKind

/-- The kinds with the names they have in configurations. -/
def named : List (String × ProviderKind) :=
  [("Initial", .initial), ("End", .final), ("AllDifferent", .allDifferent),
   ("BooleanStaticField", .booleanField), ("IntegerStaticField", .integerField),
   ("BooleanLocalVariable", .booleanVariable),
   ("PositiveIntegerLocalVariable", .positiveVariable),
   ("InvokedMethod", .invoked), ("ReturnedVoidMethod", .returnedVoid),
   ("ReturnedBooleanMethod", .returnedBoolean), ("ReturnedIntegerMethod", .returnedInteger),
   ("SynchronizedMethod", .synchronized), ("ThrownException", .thrown)]

/-- The name of a kind. -/
def name (k : ProviderKind) : String :=
  ((named.find? fun e => e.2 = k).map Prod.fst).getD ""

/-- The kind of a name; a qualified name is looked up by its last part too. -/
def ofName (name : String) : Except ConfigFault ProviderKind :=
  match Bindings.find? name named, Bindings.find? (lastPiece '.' name) named with
  | some k, _ => .ok k
  | none, some k => .ok k
  | none, none => .error (.unknownProvider name)

/-- The configuration key under which a kind finds its targets. -/
def targetKey (k : ProviderKind) : String :=
  let part :=
    match k with
    | .booleanField | .integerField => "field"
    | .booleanVariable | .positiveVariable => "variable"
    | .thrown => "type"
    | _ => "method"
  "label." ++ k.name ++ "." ++ part

end ProviderKind

end StateAtlas
