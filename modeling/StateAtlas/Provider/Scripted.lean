import StateAtlas.Provider.Basic

set_option autoImplicit false

/-!
# Providers that follow a script

To try out a label writer by itself, a provider may answer from a table instead of looking at a
program: by the number of the state, or by the operation of an instruction.

## Main definitions

* `StateAtlas.ScriptedAnswer` — an answer of a script.
* `StateAtlas.ScriptedProvider` — a provider that answers by the operation of an instruction, and
  keeps a list of what it was asked.
* `StateAtlas.AnyProvider` — a provider of a configuration or of a script.
-/

namespace StateAtlas

/-- An answer of a script. -/
inductive ScriptedAnswer where
  | labels (ls : Option (List Label))
  | fail
  deriving Inhabited

/-- The question a provider was asked. -/
inductive Question where
  | seen
  | after
  | before
  deriving DecidableEq, Repr

/-- The word for a question. -/
def Question.word : Question → String
  | .seen => "seen"
  | .after => "after"
  | .before => "before"

/-- A provider that answers by the operation of an instruction. -/
structure ScriptedProvider where
  id : String
  after : List (String × ScriptedAnswer)
  before : List (String × ScriptedAnswer)
  seen : List (String × ScriptedAnswer)
  /-- What it was asked, and for which operation. -/
  calls : Array (Question × String)
  deriving Inhabited

namespace ScriptedProvider

/-- The answers to a question. -/
def answers (p : ScriptedProvider) : Question → List (String × ScriptedAnswer)
  | .seen => p.seen
  | .after => p.after
  | .before => p.before

/-- Answers a question about an instruction. -/
def ask (p : ScriptedProvider) (q : Question) (i : Instruction) : ScriptedProvider × Opinion :=
  ({ p with calls := p.calls.push (q, i.opname) },
    match Bindings.find? i.opname (p.answers q) with
    | some (.labels ls) => .ok ls
    | some .fail => .error (.requested "provider bug")
    | none => .ok none)

end ScriptedProvider

/-- A provider of a configuration or of a script. -/
inductive AnyProvider where
  | configured (p : Provider)
  /-- Labels states by their numbers. -/
  | fixed (labels : List (Int × Option (List Label)))
  | scripted (p : ScriptedProvider)

namespace AnyProvider

/-- The name of the kind of a provider. -/
def kindName : AnyProvider → String
  | .configured p => p.kind.name
  | .fixed _ => "Fixed"
  | .scripted _ => "Scripted"

/-- Whether a provider watches the instructions. -/
def handlesTransitions : AnyProvider → Bool
  | .configured p => p.handlesTransitions
  | .fixed _ => false
  | .scripted _ => true

/-- What a provider was asked, under its name. -/
def calls : AnyProvider → List (String × Question × String)
  | .scripted p => p.calls.toList.map fun c => (p.id, c)
  | _ => []

/-- The provider with nothing asked. -/
def forget : AnyProvider → AnyProvider
  | .scripted p => .scripted { p with calls := #[] }
  | p => p

/-- The labels of the state that has just been reached. -/
def stateLabels (view : View) : AnyProvider → AnyProvider × Opinion
  | .configured p => let (p, o) := p.stateLabels view; (.configured p, o)
  | .fixed labels =>
    (.fixed labels, .ok ((labels.find? fun e => e.1 == view.stateId).bind Prod.snd))
  | .scripted p => (.scripted p, .ok none)

/-- Takes note of an instruction that is about to run. -/
def beforeInstruction (s : Scene) (i : Instruction) :
    AnyProvider → AnyProvider × Except Fault Unit
  | .configured p => let (p, o) := p.beforeInstruction s i; (.configured p, o)
  | .fixed labels => (.fixed labels, .ok ())
  | .scripted p => let (p, o) := p.ask .seen i; (.scripted p, o.map fun _ => ())

/-- The labels of a boundary right after an instruction. -/
def breakAfter (s : Scene) (i : Instruction) : AnyProvider → AnyProvider × Opinion
  | .configured p => let (p, o) := p.breakAfter s i; (.configured p, o)
  | .fixed labels => (.fixed labels, .ok none)
  | .scripted p => let (p, o) := p.ask .after i; (.scripted p, o)

/-- The labels of a boundary right before an instruction. -/
def breakBefore (s : Scene) (i : Instruction) : AnyProvider → AnyProvider × Opinion
  | .configured p => let (p, o) := p.breakBefore s i; (.configured p, o)
  | .fixed labels => (.fixed labels, .ok none)
  | .scripted p => let (p, o) := p.ask .before i; (.scripted p, o)

instance : LabelProvider AnyProvider where
  handlesTransitions := handlesTransitions
  stateLabels := stateLabels
  beforeInstruction := beforeInstruction
  breakAfter := breakAfter
  breakBefore := breakBefore

end AnyProvider

end StateAtlas
