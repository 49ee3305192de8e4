import StateAtlas.Provider.Kind

set_option autoImplicit false

/-!
# Gathering the labels of a state

A tally is the registry of a run together with the label indices gathered for the state that is
about to be reached. The labels of a set are gathered in order of name and description, so that
the index of a label does not depend on how a provider lists its set.

## Main definitions

* `StateAtlas.Tally` — the registry and the gathered indices.
* `StateAtlas.Tally.addAll` — gathers the labels of a set.
* `StateAtlas.Tally.askStates` — gathers what providers say of a new state.
* `StateAtlas.Tally.askBreaks` — gathers what providers say of a step, and whether one of them
  wants a boundary.
* `StateAtlas.Tally.prepare` — lets providers take note of an instruction.
-/

namespace StateAtlas

/-- Adds an index to an ascending list of indices. -/
def insertIndex (i : Nat) : List Nat → List Nat
  | [] => [i]
  | j :: js => if i < j then i :: j :: js else if i = j then j :: js else j :: insertIndex i js

/-- The registry of a run and the indices gathered for the next state, in ascending order. -/
structure Tally where
  registry : Registry
  current : List Nat
  deriving Inhabited

namespace Tally

/-- No labels at all. -/
def empty : Tally := ⟨.empty, []⟩

/-- Drops the gathered indices. -/
def clear (t : Tally) : Tally := { t with current := [] }

/-- Gathers a label. -/
def add (t : Tally) (l : Label) : Tally :=
  let (i, registry) := t.registry.intern l
  ⟨registry, insertIndex i t.current⟩

/-- Gathers the labels of a set. -/
def addAll (t : Tally) (labels : List Label) : Tally := (Label.arrange labels).foldl add t

section Providers

variable {P : Type} [LabelProvider P]

/-- Asks providers one after another for the labels of a new state, up to the first failure. -/
def askStates (view : View) : List P → Tally → List P × Tally × Option Fault
  | [], t => ([], t, none)
  | p :: ps, t =>
    match LabelProvider.stateLabels view p with
    | (p, .error f) => (p :: ps, t, some f)
    | (p, .ok labels) =>
      let (ps, t, failure) := askStates view ps (t.addAll (labels.getD []))
      (p :: ps, t, failure)

/-- Lets the providers that watch instructions take note of one, up to the first failure. -/
def prepare (s : Scene) (i : Instruction) : List P → List P × Option Fault
  | [] => ([], none)
  | p :: ps =>
    if LabelProvider.handlesTransitions p then
      match LabelProvider.beforeInstruction s i p with
      | (p, .error f) => (p :: ps, some f)
      | (p, .ok ()) => let (ps, failure) := prepare s i ps; (p :: ps, failure)
    else let (ps, failure) := prepare s i ps; (p :: ps, failure)

/-- What a provider says of a step: of the instruction that ran and, if the program goes on, of
the next one. The flag says whether it wants a boundary. -/
def askBreak (s : Scene) (executed : Instruction) (next : Option Instruction) (p : P) (t : Tally) :
    P × Tally × Except Fault Bool :=
  match LabelProvider.breakAfter s executed p with
  | (p, .error f) => (p, t, .error f)
  | (p, .ok after) =>
    let t := t.addAll (after.getD [])
    match next with
    | none => (p, t, .ok after.isSome)
    | some next =>
      match LabelProvider.breakBefore s next p with
      | (p, .error f) => (p, t, .error f)
      | (p, .ok before) => (p, t.addAll (before.getD []), .ok (after.isSome || before.isSome))

/-- Asks the providers that watch instructions about a step, up to the first failure. The flag
says whether any of them wants a boundary. -/
def askBreaks (s : Scene) (executed : Instruction) (next : Option Instruction) :
    List P → Tally → List P × Tally × Except Fault Bool
  | [], t => ([], t, .ok false)
  | p :: ps, t =>
    if LabelProvider.handlesTransitions p then
      match askBreak s executed next p t with
      | (p, t, .error f) => (p :: ps, t, .error f)
      | (p, t, .ok wanted) =>
        let (ps, t, rest) := askBreaks s executed next ps t
        (p :: ps, t, rest.map (wanted || ·))
    else
      let (ps, t, rest) := askBreaks s executed next ps t
      (p :: ps, t, rest)

end Providers

end Tally

end StateAtlas
