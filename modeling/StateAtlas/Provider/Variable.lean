import StateAtlas.Provider.Field

set_option autoImplicit false

/-!
# Providers for local variables

States are labelled by the values of watched local variables. A boundary falls after a store that
changes what the label says about a variable, and after the variable leaves its scope: its
function returns, or it is deleted. The value a variable had just before it left is retained for
one state, so that the state right after is still labelled with it.

## Main definitions

* `StateAtlas.Retained` — the value of a variable that has left its scope.
* `StateAtlas.VariableProvider` — the watched variables, what they were before the instruction
  that is running, and the retained values.
-/

namespace StateAtlas

/-- The value of a variable that has left its scope, and the function it lived in. -/
structure Retained where
  function : String
  value : Value
  deriving Inhabited

/-- The watched variables with what is remembered of them. -/
structure VariableProvider where
  /-- Whether the variables hold truth values, rather than integers. -/
  boolean : Bool
  watched : List VariableSpec
  /-- What the variables were before the instruction that is running; a value is missing where
  the variable was not bound. -/
  before : Bindings (Option Value)
  retained : Bindings Retained

namespace VariableProvider

/-- What a label says about a value: the truth value, or whether the integer is positive. -/
def interpret? (p : VariableProvider) (v : Value) : Option Bool :=
  if p.boolean then v.boolean? else v.integer?.map (0 < ·)

/-- The label of a variable of a function. -/
def label? (p : VariableProvider) (spec : VariableSpec) (function : String) (v : Value) :
    Option Label :=
  let target := mangle function ++ "__" ++ mangle spec.name
  let subject := function ++ ":" ++ spec.name
  match p.boolean, p.interpret? v with
  | true, some b =>
    some ⟨FieldReading.booleanWord b ++ "__" ++ target,
      subject ++ " = " ++ FieldReading.booleanText b⟩
  | false, some true => some ⟨target, subject ++ " > 0"⟩
  | _, _ => none

/-- What is known of a variable: its innermost binding, or else the retained value, which is used
up in any case. -/
def lookup (p : VariableProvider) (view : View) (spec : VariableSpec) :
    VariableProvider × Option (String × Value) :=
  let kept := p.retained.get? spec.signature
  ({ p with retained := p.retained.erase spec.signature },
    match spec.find? view.scene view.top with
    | some found => some found
    | none => kept.map fun r => (r.function, r.value))

/-- The labels of variables, one after another. -/
def labelsOf (view : View) : List VariableSpec → VariableProvider → VariableProvider × List Label
  | [], p => (p, [])
  | spec :: rest, p =>
    let (p, found) := p.lookup view spec
    let label := found.bind fun (function, v) => p.label? spec function v
    let (p, ls) := labelsOf view rest p
    (p, label.toList ++ ls)

/-- The labels of all watched variables. -/
def stateLabels (p : VariableProvider) (view : View) : VariableProvider × Opinion :=
  let (p, ls) := labelsOf view p.watched p
  (p, .ok (some ls))

/-- Whether an instruction binds or unbinds a variable, or returns from a function. -/
def touches (spec : VariableSpec) (i : Instruction) : Bool :=
  i.stores spec.name || i.deletes spec.name || i.isReturn

/-- Forgets all retained values, and notes the variables an instruction may change. -/
def beforeInstruction (p : VariableProvider) (s : Scene) (i : Instruction) : VariableProvider :=
  let watched := p.watched.filter fun spec => spec.function.covers i.function && touches spec i
  { p with
    before := Bindings.ofList (watched.map fun spec => (spec.signature, s.local? i.frame spec.name))
    retained := .empty }

/-- What an instruction did to a variable that was noted before: whether it asks for a boundary,
and the value to retain. -/
def change (p : VariableProvider) (s : Scene) (i : Instruction) (spec : VariableSpec) :
    Bool × Option Retained :=
  match p.before.get? spec.signature with
  | none => (false, none)
  | some before =>
    if i.stores spec.name then
      ((s.local? i.frame spec.name).bind p.interpret? != before.bind p.interpret?, none)
    else if i.isReturn || i.deletes spec.name then
      match before with
      | some v => if (p.interpret? v).isSome then (true, some ⟨i.function, v⟩) else (false, none)
      | none => (false, none)
    else (false, none)

/-- Retains the values that left their scope, and asks for a boundary after any change. -/
def breakAfter (p : VariableProvider) (s : Scene) (i : Instruction) : VariableProvider × Opinion :=
  let changes := p.watched.map fun spec => (spec.signature, p.change s i spec)
  let kept := changes.filterMap fun (signature, _, r) => r.map (signature, ·)
  ({ p with retained := p.retained.setAll kept },
    .ok (if changes.any fun c => c.2.1 then some [] else none))

end VariableProvider

end StateAtlas
