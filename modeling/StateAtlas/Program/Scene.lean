import StateAtlas.Program.Value
import StateAtlas.Text.Split

set_option autoImplicit false

/-!
# What can be seen of a program

A scene is the memory of a program at one moment: its heap, the modules that are loaded, and the
activations of its functions with their local variables. Listeners and label providers read it and
never change it.

## Main definitions

* `StateAtlas.Frame` — an activation of a function, of the body of a class, or of a module.
* `StateAtlas.Scene` — heap, loaded modules and frames.
* `StateAtlas.Scene.functionName`, `StateAtlas.Scene.owner` — the names a frame goes by.
* `StateAtlas.Scene.locals` — the local variables of a frame.
* `StateAtlas.Scene.stack` — the frames on the way out from a frame.
* `StateAtlas.Scene.resolve?` — the current value of a dotted name.
-/

namespace StateAtlas

/-- The number of a frame in its scene. -/
abbrev FrameId := Nat

/-- The place of one local variable. -/
inductive Slot where
  | unbound
  | value (v : Value)
  /-- In a cell that other functions share. -/
  | cell (a : Address)
  deriving Inhabited

/-- Where the local variables of a frame live. -/
inductive Locals where
  /-- In slots of the frame. -/
  | slots (names : Array String) (values : Array Slot)
  /-- In the variables of a module or of the body of a class. -/
  | variables (a : Address)
  deriving Inhabited

/-- An activation of a function, of the body of a class, or of a module. -/
structure Frame where
  /-- The module in which global names are looked up. -/
  globals : Address
  name : String
  qualname : Option String
  file : String
  line : Int
  /-- The offset of the instruction that runs or ran last. -/
  position : Int
  /-- Whether this is a function, whose local variables are its own. -/
  optimized : Bool
  /-- The frame that called this one. -/
  caller : Option FrameId
  locals : Locals
  deriving Inhabited

/-- The memory of a program at one moment. -/
structure Scene where
  heap : Heap
  /-- The loaded modules by name; a name may be registered without a module. -/
  modules : Bindings (Option Address)
  frames : Array Frame
  deriving Inhabited

namespace Scene

/-- The scene in which no program is loaded. -/
def empty : Scene := ⟨.empty, .empty, #[]⟩

/-- The frame of a number. -/
def frame? (s : Scene) (f : FrameId) : Option Frame := s.frames[f]?

/-- The name of the module of a frame; a question mark if it has none. -/
def moduleName (s : Scene) (f : FrameId) : String :=
  match s.frame? f with
  | some fr =>
    match (s.heap.variables fr.globals).get? "__name__" with
    | some v => v.text?.getD "?"
    | none => "?"
  | none => "?"

/-- The qualified name of the code of a frame, or its plain name. -/
def codeName (s : Scene) (f : FrameId) : String :=
  match s.frame? f with
  | some fr => fr.qualname.getD fr.name
  | none => ""

/-- The qualified name of what a frame executes, after the name of its module. -/
def functionName (s : Scene) (f : FrameId) : String :=
  s.moduleName f ++ "." ++ s.codeName f

/-- The namespace in which a frame binds names: its module, or its class. -/
def owner (s : Scene) (f : FrameId) : String :=
  if s.codeName f = "<module>" then s.moduleName f else s.functionName f

/-- The value in a slot. -/
def slotValue? (s : Scene) : Slot → Option Value
  | .unbound => none
  | .value v => some v
  | .cell a =>
    match s.heap.get? a with
    | some (.cell content) => content
    | _ => none

/-- The bound names of a frame with their values. -/
def locals (s : Scene) (f : FrameId) : List (String × Value) :=
  match s.frame? f with
  | none => []
  | some fr =>
    match fr.locals with
    | .variables a => (s.heap.variables a).entries
    | .slots names values =>
      (names.toList.zip values.toList).filterMap fun (n, slot) =>
        (s.slotValue? slot).map (n, ·)

/-- The value of a local variable of a frame. -/
def local? (s : Scene) (f : FrameId) (name : String) : Option Value :=
  Bindings.find? name (s.locals f)

/-- The frames on the way out from a frame, itself first; `fuel` bounds their number. -/
def outward (s : Scene) (fuel : Nat) (f : Option FrameId) : List FrameId :=
  match fuel, f with
  | fuel + 1, some f =>
    match s.frame? f with
    | some fr => f :: s.outward fuel fr.caller
    | none => []
  | _, _ => []

/-- The frames on the way out from a frame, itself first. -/
def stack (s : Scene) (f : Option FrameId) : List FrameId := s.outward s.frames.size f

/-- The frames of the program in `file` on the stack, outermost first. -/
def programFrames (s : Scene) (f : Option FrameId) (file : String) : List FrameId :=
  ((s.stack f).filter fun i =>
    match s.frame? i with
    | some fr => fr.file == file
    | none => false).reverse

/-- The attributes that a module, a class or an instance has of its own. -/
def namespace? (s : Scene) (v : Value) : Option (Bindings Value) :=
  match s.heap.object? v with
  | some (.module vs) | some (.body vs) => some vs
  | some (.type info) => some info.attributes
  | some (.function info) => some info.attributes
  | some (.object _ attributes) | some (.exception _ _ attributes) => some attributes
  | _ => none

/-- Follows names from a value through the attributes that each value has of its own. -/
def follow? (s : Scene) (v : Value) : List String → Option Value
  | [] => some v
  | name :: rest =>
    match s.namespace? v with
    | some vs =>
      match vs.get? name with
      | some v => s.follow? v rest
      | none => none
    | none => none

/-- Looks for the longest loaded module among the first `n` parts of a dotted name, and follows
the other parts from it. -/
def resolveParts? (s : Scene) (parts : List String) : Nat → Option Value
  | 0 => none
  | n + 1 =>
    match s.modules.get? (String.intercalate "." (parts.take (n + 1))) with
    | some (some a) => s.follow? (.ref a) (parts.drop (n + 1))
    | _ => s.resolveParts? parts n

/-- The current value of a dotted name: an attribute of a loaded module, or an attribute of such
an attribute. -/
def resolve? (s : Scene) (dotted : String) : Option Value :=
  let parts := splitText '.' dotted
  s.resolveParts? parts (parts.length - 1)

end Scene

end StateAtlas
