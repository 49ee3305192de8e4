import StateAtlas.Fingerprint.Frozen
import StateAtlas.Program.Compare
import StateAtlas.Program.Scene

set_option autoImplicit false

/-!
# Fingerprints of program states

A fingerprint is a picture of everything that identifies a state: the kind of boundary it lies on,
the position and the local variables of every frame of the program, and the variables of its
module. Values are pictured by their structure down to a fixed depth; what lies deeper, and what
cannot be looked into, is pictured by its type.

A fingerprint may be impossible: the members of a set are put in order of the written forms of their
pictures, and a key that is no text is pictured by its written form, which integers with too many
digits do not have; and a module may have lost its name.

## Main definitions

* `StateAtlas.freeze` — the picture of a value.
* `StateAtlas.Boundary` — the kinds of boundary.
* `StateAtlas.Scene.fingerprint` — the picture of a state.
* `StateAtlas.Frozen.keyOrFault` — what a search compares, if the picture of a state could be made.
-/

namespace StateAtlas

/-- The number of levels of structure a picture shows. -/
def maxFreezeDepth : Nat := 4

/-- Names that start and end in two underscores are no part of the state. -/
def isHiddenName (s : String) : Bool := s.startsWith "__" && s.endsWith "__"

/-- A picture of what is the same as nothing but the object it is, or of something else. -/
def Frozen.marked (identity : Option Identity) (f : Frozen) : Frozen :=
  match identity with
  | some i => .object i f.datum
  | Option.none => f

/-- The constant a value is, if it is one. -/
def Value.constant? (v : Value) : Option Frozen :=
  match v.content with
  | .none => some .none
  | .bool b => some (.bool b)
  | .int i =>
    match v.ownText? with
    | some text => some (.named text i)
    | Option.none => some (.int i)
  | .float x => some (.marked v.identity? (.float x))
  | .complex re im => some (.marked v.identity? (.complex re im))
  | .str s => some (.str s)
  | .bytes bs => some (.bytes bs)
  | _ => Option.none

/-- What stands for a value that is not pictured: the constant it is, or the object. -/
def Value.raw (v : Value) : Frozen :=
  match v.constant? with
  | some c => c
  | Option.none =>
    match v.content with
    | .ref a => .object (.made a) (.foreign "object" "..." "...")
    | .builtin (.function qualname) => .tuple [.str "builtin", .str qualname]
    | .builtin (.type module qualname) => .tuple [.str "builtin", .str module, .str qualname]
    | _ => .tuple []

/-- The written form of a picture, or what has gone wrong. -/
def Frozen.written (f : Frozen) : Except Fault String :=
  match f.fault?, f.text? with
  | some fault, _ => .error fault
  | Option.none, some text => .ok text
  | Option.none, Option.none => .error .integerTooLong

/-- Pictures in order of their written forms. -/
def arrangeFrozen (fs : List Frozen) : Frozen :=
  match Frozen.faultOf? fs, fs.mapM Frozen.text? with
  | some fault, _ => .unmade fault
  | none, none => .unmade .integerTooLong
  | none, some texts =>
    .tuple (((texts.zip fs).mergeSort fun a b => a.1 ≤ b.1).map Prod.snd)

/-- A picture under a name, which may be missing. -/
def freezeEntry (name : Except Fault String) (f : Frozen) : String × Frozen :=
  match name with
  | .ok name => (name, f)
  | .error fault => ("", .unmade fault)

/-- The picture of named pictures, in order of the names. -/
def freezeFields (fields : List (String × Frozen)) : Frozen :=
  .tuple ((fields.mergeSort fun a b => a.1 ≤ b.1).map fun (n, f) => .tuple [.str n, f])

/-- The picture of the name that something has among its variables. -/
def freezeName (subject : String) (vs : Bindings Value) : Frozen :=
  match vs.get? "__name__" with
  | some v => v.raw
  | none => .unmade (.missingRole subject "__name__")

/-- The picture of a value with `room` levels of structure left. Classes of the module `owner` are
pictured with their attributes, other classes by their names. -/
def freezeWithin (h : Heap) (owner : Value) : Nat → Value → Frozen
  | room, v =>
    match v.constant? with
    | some c => .tuple [.str (h.typeNameOf v), c]
    | none =>
      match room with
      | 0 => .tuple [.str "...", .str (h.typeNameOf v)]
      | room + 1 =>
        let inner := freezeWithin h owner room
        let fields (vs : Bindings Value) : Frozen :=
          freezeFields ((vs.entries.filter fun e => !isHiddenName e.1).map fun (n, v) => (n, inner v))
        match v.content with
        | .tuple items => .tuple [.str (h.typeNameOf v), .tuple (items.map inner)]
        | .builtin (.function qualname) => .tuple [.str "function", .str qualname]
        | .builtin (.type module qualname) => .tuple [.str "class", .str module, .str qualname]
        | .ref a =>
          match h.get? a with
          | some (.list items) =>
            .tuple [.str (h.typeNameOf v), .tuple (items.toList.map inner)]
          | some (.set _ items) =>
            .tuple [.str "set", arrangeFrozen (items.toList.map inner)]
          | some (.dict entries) =>
            let shown := entries.toList.filter fun e =>
              match e.1.text? with
              | some n => !isHiddenName n
              | none => true
            .tuple [.str "dict", freezeFields (shown.map fun (k, v) =>
              freezeEntry
                (match k.text? with
                  | some n => .ok n
                  | none => (inner k).written)
                (inner v))]
          | some (.module vs) => .tuple [.str "module", freezeName "module" vs]
          | some (.body vs) => .tuple [.str "dict", fields vs]
          | some (.type info) =>
            if h.equal (Heap.homeOf info) owner then
              .tuple [.str "class", .str info.qualname, fields info.attributes]
            else .tuple [.str "class", (Heap.homeOf info).raw, .str info.qualname]
          | some (.object _ attributes) | some (.exception _ _ attributes) =>
            .tuple [.str "object", .str (h.typeNameOf v), fields attributes]
          | _ =>
            match h.callableName? v with
            | some qualname => .tuple [.str "function", .str qualname]
            | none => .tuple [.str "opaque", .str (h.typeNameOf v)]
        | _ => .tuple [.str "opaque", .str (h.typeNameOf v)]

/-- The picture of a value that itself lies at some depth. -/
def freeze (h : Heap) (owner : String) (depth : Int) (v : Value) : Frozen :=
  freezeWithin h (.str owner) ((maxFreezeDepth : Int) - depth).toNat v

/-- The kinds of boundary between two transitions. -/
inductive Boundary where
  /-- A listener asked for it. -/
  | requested
  /-- A choice among some alternatives. -/
  | choice (options : Nat)
  /-- The program ended. -/
  | finished
  deriving DecidableEq, Repr

/-- The picture of a kind of boundary. -/
def Boundary.frozen : Boundary → Frozen
  | .requested => .str "break"
  | .choice options => .tuple [.str "choice", .int options]
  | .finished => .str "end"

namespace Scene

/-- The picture of named values, without hidden names. -/
def freezeNames (s : Scene) (owner : Value) (names : List (String × Value)) : Frozen :=
  freezeFields ((names.filter fun e => !isHiddenName e.1).map fun (n, v) =>
    (n, freezeWithin s.heap owner (maxFreezeDepth - 1) v))

/-- The picture of a frame: its code, its position and, in a function, its local variables. -/
def freezeFrame (s : Scene) (owner : Value) (f : FrameId) : Frozen :=
  match s.frame? f with
  | none => .tuple []
  | some fr =>
    .tuple [.str (fr.qualname.getD fr.name), .int fr.line, .int fr.position,
      if fr.optimized then s.freezeNames owner (s.locals f) else .tuple []]

/-- The name of a module; without a module it is empty. -/
def ownerName? (s : Scene) (module : Option Address) : Option Value :=
  match module with
  | some a => (s.heap.variables a).get? "__name__"
  | none => some (.str "")

/-- The picture of a state: the boundary, the frames, and the variables of the module, which must
have its name. -/
def fingerprint (s : Scene) (frames : List FrameId) (module : Option Address)
    (boundary : Frozen) : Frozen :=
  match s.ownerName? module with
  | none => .unmade (.missingRole "module" "__name__")
  | some owner =>
    .tuple [boundary, .tuple (frames.map (s.freezeFrame owner)),
      match module with
      | some a => s.freezeNames owner (s.heap.variables a).entries
      | none => .tuple []]

end Scene

/-- The tokens of a picture that was made in the execution of a number, or what has gone wrong. -/
def Frozen.keyOrFault (execution : Nat) (f : Frozen) : Except Fault (List Frozen.Mark) :=
  match f.fault? with
  | some fault => .error fault
  | Option.none => .ok (f.keyIn execution)

end StateAtlas
