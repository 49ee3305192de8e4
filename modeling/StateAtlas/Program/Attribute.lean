import StateAtlas.Program.Literal
import StateAtlas.Program.Scene

set_option autoImplicit false

/-!
# Attributes

Modules, classes, instances, exceptions and functions have attributes of their own. An attribute
of an instance is looked up in its class and the ancestors of its class as well.

## Main definitions

* `StateAtlas.Heap.setOwn?`, `StateAtlas.Heap.eraseOwn?` — changes the attributes a value has of
  its own.
* `StateAtlas.Heap.typeAttribute?` — an attribute of a class or of one of its ancestors.
* `StateAtlas.Scene.owner?` — the value that a dotted name has its last part from.
-/

namespace StateAtlas

namespace Heap

/-- Changes the attributes an object has of its own, if it has any. -/
def mapOwn? (f : Bindings Value → Bindings Value) : Obj → Option Obj
  | .module vs => some (.module (f vs))
  | .body vs => some (.body (f vs))
  | .type info => some (.type { info with attributes := f info.attributes })
  | .object t vs => some (.object t (f vs))
  | .exception t arguments vs => some (.exception t arguments (f vs))
  | .function info => some (.function { info with attributes := f info.attributes })
  | _ => none

/-- Changes the attributes a value has of its own, if it has any. -/
def updateOwn? (h : Heap) (v : Value) (f : Bindings Value → Bindings Value) : Option Heap :=
  match v with
  | .ref a =>
    match h.get? a with
    | some o => (mapOwn? f o).map (h.set a)
    | none => none
  | _ => none

/-- Sets an attribute a value has of its own, if it can have any. -/
def setOwn? (h : Heap) (v : Value) (name : String) (x : Value) : Option Heap :=
  h.updateOwn? v (·.set name x)

/-- Removes an attribute a value has of its own. -/
def eraseOwn? (h : Heap) (v : Value) (name : String) : Option Heap :=
  h.updateOwn? v (·.erase name)

/-- The attributes a class has of its own. -/
def ownTypeAttribute? (h : Heap) (name : String) (t : Value) : Option Value :=
  match h.object? t with
  | some (.type info) => info.attributes.get? name
  | _ => none

/-- An attribute of a class or of the nearest of its ancestors that has it. -/
def typeAttribute? (h : Heap) (t : Value) (name : String) : Option Value :=
  (t :: h.ancestors t).findSome? (h.ownTypeAttribute? name)

end Heap

/-- The module of a name, or else the value that the name leads to. -/
def Scene.owner? (s : Scene) (dotted : String) : Option Value :=
  match s.modules.get? dotted with
  | some (some a) => some (.ref a)
  | _ => s.resolve? dotted

end StateAtlas
