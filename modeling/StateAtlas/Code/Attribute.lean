import StateAtlas.Program.Attribute
import StateAtlas.Program.Arithmetic

set_option autoImplicit false

/-!
# Attributes in running code

## Main definitions

* `StateAtlas.Heap.isRunningSearch` — the attribute by which a program finds the search it is in.
* `StateAtlas.Heap.loadAttribute` — the attribute of a value; functions in a class become methods.
* `StateAtlas.Heap.loadMethod` — an attribute that is about to be called.
* `StateAtlas.Heap.storeAttribute`, `StateAtlas.Heap.deleteAttribute` — change the attributes of a
  value.
-/

namespace StateAtlas

namespace Heap

/-- The methods of built-in classes. -/
def builtinMethods : List (String × List String) :=
  [("list", ["append", "pop", "sort"]), ("set", ["add"]),
   ("Verify", ["get_boolean", "get_int", "get_choice"]), ("Search", ["terminate"])]

/-- A method of a built-in class. -/
def builtinMethod? (type name : String) : Option Value :=
  match Bindings.find? type builtinMethods with
  | some names => if names.contains name then some (.builtin (.function (type ++ "." ++ name))) else none
  | none => none

/-- The exception for an attribute that is missing. -/
def noAttribute (h : Heap) (v : Value) (name : String) : Raised :=
  let subject :=
    match h.object? v with
    | some (.module vs) =>
      "module " ++ Quoted.text (((vs.get? "__name__").bind Value.text?).getD "?")
    | _ =>
      if h.isType v then "type object " ++ Quoted.text (h.typeName v)
      else Quoted.text (h.typeNameFor v) ++ " object"
  .ofText "AttributeError" (subject ++ " has no attribute " ++ Quoted.text name)

/-- The attributes that every class has, by its names. -/
def typeFact? (h : Heap) (t : Value) (name : String) : Option Value :=
  match name with
  | "__name__" => some (.str (h.typeName t))
  | "__qualname__" => some (.str (h.typeQualname t))
  | "__module__" => some (.str (h.typeModule t))
  | _ => none

/-- An attribute of a class. -/
def classAttribute? (h : Heap) (t : Value) (name : String) : Option Value :=
  match h.typeFact? t name with
  | some v => some v
  | none =>
    match h.typeAttribute? t name with
    | some v => some v
    | none =>
      match t with
      | .builtin (.type _ qualname) => builtinMethod? qualname name
      | _ => none

/-- Whether a value is a function, which becomes a method in a class. -/
def isFunction (h : Heap) (v : Value) : Bool :=
  match h.object? v with
  | some (.function _) => true
  | _ => false

/-- An attribute that a value has of its own. -/
def ownAttribute? (h : Heap) (v : Value) (name : String) : Option Value :=
  match h.object? v with
  | some (.module vs) => vs.get? name
  | some (.object _ vs) => vs.get? name
  | some (.exception _ arguments vs) =>
    match vs.get? name with
    | some x => some x
    | none => if name == "args" then some (.tuple arguments) else none
  | some (.function info) =>
    match info.attributes.get? name, name with
    | some x, _ => some x
    | none, "__name__" => some (.str (shortName info.qualname))
    | none, "__qualname__" => some (.str info.qualname)
    | none, _ => none
  | _ => none

/-- The attribute of a value, or the function that becomes a method of it. -/
def findAttribute? (h : Heap) (v : Value) (name : String) : Option (Value ⊕ Value) :=
  if h.isType v then (h.classAttribute? v name).map .inl
  else
    match h.ownAttribute? v name with
    | some x => some (.inl x)
    | none =>
      if name == "__class__" then some (.inl (h.typeOf v))
      else
        match h.object? v with
        | some (.object ..) | some (.exception ..) =>
          (h.typeAttribute? (h.typeOf v) name).map fun x =>
            if h.isFunction x then .inr x else .inl x
        | some (.list _) => (builtinMethod? "list" name).map .inr
        | some (.set false _) => (builtinMethod? "set" name).map .inr
        | some (.sealed "Search") => (builtinMethod? "Search" name).map .inr
        | _ => none

/-- Whether an attribute is the running search, which the class that asks for values holds. -/
def isRunningSearch (v : Value) (name : String) : Bool :=
  match v with
  | .builtin (.type "statelabel.verify" "Verify") => name == "_search"
  | _ => false

/-- The attribute of a value; a method is bound to the value. -/
def loadAttribute (h : Heap) (v : Value) (name : String) : Except Raised (Value × Heap) :=
  match h.findAttribute? v name with
  | some (.inl x) => .ok (x, h)
  | some (.inr f) =>
    let (a, h) := h.allocate (.bound v f)
    .ok (.ref a, h)
  | none =>
    if isRunningSearch v name then
      let (a, h) := h.allocate (.sealed "Search")
      .ok (.ref a, h)
    else .error (h.noAttribute v name)

/-- An attribute that is about to be called: a method with its receiver, or any other value. -/
def loadMethod (h : Heap) (v : Value) (name : String) : Except Raised (Value × Option Value) :=
  match h.findAttribute? v name with
  | some (.inl x) => .ok (x, none)
  | some (.inr f) => .ok (f, some v)
  | none => .error (h.noAttribute v name)

/-- The exception for a class whose attributes cannot be changed. -/
def immutableType (h : Heap) (v : Value) (name : String) : Raised :=
  .ofText "TypeError" ("cannot set " ++ Quoted.text name ++ " attribute of immutable type " ++
    Quoted.text (h.typeName v))

/-- Sets an attribute of a value. -/
def storeAttribute (h : Heap) (v : Value) (name : String) (x : Value) : Except Raised Heap :=
  match h.setOwn? v name x, v with
  | some h, _ => .ok h
  | none, .builtin (.type ..) => .error (h.immutableType v name)
  | none, _ => .error (h.noAttribute v name)

/-- Removes an attribute of a value. -/
def deleteAttribute (h : Heap) (v : Value) (name : String) : Except Raised Heap :=
  let has :=
    match h.object? v with
    | some (.type info) => info.attributes.contains name
    | _ => (h.ownAttribute? v name).isSome
  match has, h.eraseOwn? v name, v with
  | true, some h, _ => .ok h
  | _, _, .builtin (.type ..) => .error (h.immutableType v name)
  | _, _, _ =>
    .error <|
      match h.object? v with
      | some (.module _) =>
        .ofText "AttributeError" ("'module' object has no attribute " ++ Quoted.text name)
      | _ => h.noAttribute v name

end Heap

end StateAtlas
