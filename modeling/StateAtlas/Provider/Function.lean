import StateAtlas.Provider.Field

set_option autoImplicit false

/-!
# Providers for calls and returns

A call of a watched function is seen at the first instruction of the call, a return at the return
instruction once it is complete.

## Main definitions

* `StateAtlas.FunctionWatch` — which calls and returns are labelled.
* `StateAtlas.FunctionProvider` — the watched functions.
-/

namespace StateAtlas

/-- Which calls and returns are labelled. -/
inductive FunctionWatch where
  /-- Calls. -/
  | invoked
  /-- Returns without a value. -/
  | void
  /-- Returns of a truth value. -/
  | boolean
  /-- Returns of an integer. -/
  | integer
  /-- Calls and returns of functions that hold a lock while they run. -/
  | locked
  deriving DecidableEq, Repr

/-- The watched functions. -/
structure FunctionProvider where
  watch : FunctionWatch
  functions : List FunctionSpec

namespace FunctionProvider

/-- The first pattern that covers a function. -/
def matching? (p : FunctionProvider) (function : String) : Option FunctionSpec :=
  p.functions.find? (·.covers function)

/-- The labels of a complete return. -/
def returnLabels (watch : FunctionWatch) (pattern function : String) (v : Value) : Opinion :=
  let target := "__" ++ mangle function
  match watch with
  | .invoked => .ok none
  | .void => .ok (if v.isNone then some [⟨"returned" ++ target, pattern ++ " returned"⟩] else none)
  | .boolean =>
    .ok (v.boolean?.map fun b =>
      [⟨FieldReading.booleanWord b ++ target,
        pattern ++ " returned " ++ FieldReading.booleanText b⟩])
  | .integer =>
    match v.integer? with
    | none => .ok none
    | some i =>
      match (FieldReading.int i v.ownText?).texts with
      | .ok (word, text) => .ok (some [⟨word ++ target, pattern ++ " returned " ++ text⟩])
      | .error f => .error f
  | .locked => .ok (some [⟨"unlocked" ++ target, pattern ++ " unlocked"⟩])

/-- The labels right after an instruction: those of a complete return. -/
def breakAfter (p : FunctionProvider) (i : Instruction) : Opinion :=
  if i.isReturn && i.returned then
    match p.matching? i.function with
    | some spec => returnLabels p.watch spec.pattern i.function i.returnValue
    | none => .ok none
  else .ok none

/-- The labels right before an instruction: those of a call. -/
def breakBefore (p : FunctionProvider) (i : Instruction) : Opinion :=
  if i.isEntry then
    match p.watch, p.matching? i.function with
    | .invoked, some spec =>
      .ok (some [⟨"invoked__" ++ mangle i.function, spec.pattern ++ " is invoked"⟩])
    | .locked, some spec =>
      .ok (some [⟨"locked__" ++ mangle i.function, spec.pattern ++ " locked"⟩])
    | _, _ => .ok none
  else .ok none

end FunctionProvider

end StateAtlas
