import StateAtlas.Program.Compare
import StateAtlas.Text.Split

set_option autoImplicit false

/-!
# Literals

A literal describes a value without a heap. Planting it makes a fresh value of that description,
with new objects for everything that can be changed.

## Main definitions

* `StateAtlas.Literal` — the description of a value.
* `StateAtlas.Literal.settle` — the description of a constant.
* `StateAtlas.Literal.plant` — a fresh value of a description.
* `StateAtlas.Heap.plantModule` — a fresh module with variables.
-/

namespace StateAtlas

/-- The description of a value. -/
inductive Literal where
  | none
  | bool (b : Bool)
  | int (i : Int)
  | float (x : Float)
  | complex (re im : Float)
  | str (s : String)
  | bytes (bs : List UInt8)
  | tuple (items : List Literal)
  | list (items : List Literal)
  /-- A list whose last item is the list itself. -/
  | selfList (items : List Literal)
  | set (frozen : Bool) (items : List Literal)
  | dict (entries : List (Literal × Literal))
  /-- A number with a part that is not a number, which is a constant of the code. -/
  | fixed (place : List Nat) (number : Literal)
  | derived (type : String) (base : Literal)
  | type (module qualname : String) (attributes : List (String × Literal))
      (parent : Option Literal)
  /-- An instance of a class of a module that holds only the class's name. -/
  | object (module qualname : String) (attributes : List (String × Literal))
  | sealed (type : String)
  | module (name : String)
  | callable (type qualname : String)
  | builtin (qualname : String)
  /-- A method of an empty list. -/
  | listMethod (qualname : String)
  deriving Inhabited

namespace Heap

/-- The variables of a new module. -/
def moduleVariables (name : String) : Bindings Value :=
  .ofList [("__name__", .str name), ("__doc__", .none), ("__package__", .none),
    ("__loader__", .none), ("__spec__", .none)]

/-- A new module with some variables. -/
def plantModule (h : Heap) (name : String) (bindings : List (String × Value)) :
    Address × Heap :=
  h.allocate (.module ((moduleVariables name).setAll bindings))

/-- The last part of a qualified name. -/
def shortName (qualname : String) : String := lastPiece '.' qualname

/-- A new class. A class without a parent brings the attributes that every instance needs. -/
def plantType (h : Heap) (module qualname : String) (attributes : List (String × Value))
    (parent : Option Value) : Address × Heap :=
  let own : List (String × Value) := ("__module__", .str module) :: attributes
  let (d, h) := h.allocate (.sealed "getset_descriptor")
  let rest : List (String × Value) :=
    match parent with
    | some _ => [("__doc__", .none)]
    | none => [("__dict__", .ref d), ("__weakref__", .ref d), ("__doc__", .none)]
  let all := rest.foldl (fun (b : Bindings Value) e => if b.contains e.1 then b else b.set e.1 e.2)
    (Bindings.ofList own)
  let ancestors :=
    match parent with
    | some p => p :: h.ancestors p
    | none => [.ofType "object"]
  h.allocate (.type ⟨shortName qualname, qualname, all, ancestors⟩)

end Heap

namespace Literal

mutual

/-- The description of a constant that has a place in the code: what is not a number in it is the same
object whenever it is loaded. -/
def settle (place : List Nat) : Literal → Literal
  | .float x => if x.isNaN then .fixed place (.float x) else .float x
  | .complex re im =>
    if re.isNaN || im.isNaN then .fixed place (.complex re im) else .complex re im
  | .tuple items => .tuple (settleAll place 0 items)
  | .set frozen items => .set frozen (settleAll place 0 items)
  | l => l

/-- The descriptions of the items of a constant, from a number on. -/
def settleAll (place : List Nat) (n : Nat) : List Literal → List Literal
  | [] => []
  | l :: ls => settle (n :: place) l :: settleAll place (n + 1) ls

end

mutual

/-- A fresh value of a description. -/
def plant (h : Heap) : Literal → Value × Heap
  | .none => (.none, h)
  | .bool b => (.bool b, h)
  | .int i => (.int i, h)
  | .float x => h.settle (.float x)
  | .complex re im => h.settle (.complex re im)
  | .str s => (.str s, h)
  | .bytes bs => (.bytes bs, h)
  | .tuple items =>
    let (vs, h) := plantAll h items
    (.tuple vs, h)
  | .list items =>
    let (vs, h) := plantAll h items
    let (a, h) := h.allocate (.list vs.toArray)
    (.ref a, h)
  | .selfList items =>
    let (vs, h) := plantAll h items
    let (a, h) := h.allocate (.list vs.toArray)
    (.ref a, h.set a (.list (vs.toArray.push (.ref a))))
  | .set frozen items =>
    let (vs, h) := plantAll h items
    let (a, h) := h.allocate (.set frozen (vs.foldl h.addMember #[]))
    (.ref a, h)
  | .dict entries =>
    let (vs, h) := plantEntries h entries
    let (a, h) := h.allocate (.dict (vs.foldl (fun es e => h.setEntry es e.1 e.2) #[]))
    (.ref a, h)
  | .fixed place number =>
    let (v, h) := plant h number
    (.nan (.constant place) v.content, h)
  | .derived name base =>
    let (v, h) := plant h base
    (.derived name Option.none v, h)
  | .type home qualname attributes parent =>
    let (vs, h) := plantFields h attributes
    let (p, h) := plantParent h parent
    let (a, h) := h.plantType home qualname vs p
    (.ref a, h)
  | .object home qualname attributes =>
    let (vs, h) := plantFields h attributes
    let (t, h) := h.plantType home qualname [] Option.none
    let (a, h) := h.allocate (.object t (.ofList vs))
    (.ref a, h)
  | .sealed name =>
    let (a, h) := h.allocate (.sealed name)
    (.ref a, h)
  | .module name =>
    let (a, h) := h.plantModule name []
    (.ref a, h)
  | .callable kind qualname =>
    let (a, h) := h.allocate (.callable kind qualname)
    (.ref a, h)
  | .builtin qualname => (.builtin (.function qualname), h)
  | .listMethod qualname =>
    let (l, h) := h.allocate (.list #[])
    let (a, h) := h.allocate (.bound (.ref l) (.builtin (.function qualname)))
    (.ref a, h)

/-- Fresh values of descriptions. -/
def plantAll (h : Heap) : List Literal → List Value × Heap
  | [] => ([], h)
  | l :: ls =>
    let (v, h) := plant h l
    let (vs, h) := plantAll h ls
    (v :: vs, h)

/-- Fresh values of named descriptions. -/
def plantFields (h : Heap) : List (String × Literal) → List (String × Value) × Heap
  | [] => ([], h)
  | (n, l) :: ls =>
    let (v, h) := plant h l
    let (vs, h) := plantFields h ls
    ((n, v) :: vs, h)

/-- Fresh values of pairs of descriptions. -/
def plantEntries (h : Heap) : List (Literal × Literal) → List (Value × Value) × Heap
  | [] => ([], h)
  | (k, l) :: ls =>
    let (k, h) := plant h k
    let (v, h) := plant h l
    let (vs, h) := plantEntries h ls
    ((k, v) :: vs, h)

/-- A fresh value of a description that may be missing. -/
def plantParent (h : Heap) : Option Literal → Option Value × Heap
  | Option.none => (Option.none, h)
  | some l =>
    let (v, h) := plant h l
    (some v, h)

end

end Literal

end StateAtlas
