import StateAtlas.Data.Bindings

set_option autoImplicit false

/-!
# Values of explored programs

A value is either complete in itself (a number, a text, a tuple) or a reference to an object on
the heap, where lists, mappings, classes, instances and functions live and may be changed.

## Main definitions

* `StateAtlas.Identity` — what makes an object the one it is.
* `StateAtlas.Value` — a value.
* `StateAtlas.Obj` — an object on the heap.
* `StateAtlas.Heap` — the objects of a program, by address.
-/

namespace StateAtlas

/-- The place of an object on the heap. -/
abbrev Address := Nat

/-- A function or a class that every program finds in its environment. -/
inductive Builtin where
  | function (qualname : String)
  | type (module qualname : String)
  deriving DecidableEq, Repr, Inhabited

/-- What makes an object the one it is, where this can be told from outside. -/
inductive Identity where
  /-- A constant of the code, by its place there: one object in all executions. -/
  | constant (place : List Nat)
  /-- An object that an execution of the program has made. -/
  | made (a : Address)
  deriving DecidableEq, Repr, Inhabited

/-- A value of an explored program. -/
inductive Value where
  | none
  | bool (b : Bool)
  | int (i : Int)
  | float (x : Float)
  | complex (re im : Float)
  | str (s : String)
  | bytes (bs : List UInt8)
  | tuple (items : List Value)
  /-- A number with a part that is not a number. It is not even equal to itself, so that containers
  and fingerprints tell it from others by the object it is. -/
  | nan (identity : Identity) (number : Value)
  /-- An instance of a class of the given name that is derived from the type of `base`; with the text
  it has by itself, if this is not that of `base`. -/
  | derived (type : String) (text : Option String) (base : Value)
  | builtin (b : Builtin)
  | ref (a : Address)
  deriving Inhabited

namespace Value

/-- The value itself, without the object it is and the classes it is an instance of beyond the
built-in type. -/
def content : Value → Value
  | .nan _ base | .derived _ _ base => base.content
  | v => v

/-- The object that a value is, where it is equal to nothing but itself as an object. -/
def identity? : Value → Option Identity
  | .nan identity _ => some identity
  | .derived _ _ base => base.identity?
  | _ => Option.none

/-- The text that a value has by itself, other than that of its content. -/
def ownText? : Value → Option String
  | .derived _ text base => text <|> base.ownText?
  | _ => Option.none

/-- Whether a value has a part that is not a number. -/
def isNan : Value → Bool
  | .float x => x.isNaN
  | .complex re im => re.isNaN || im.isNaN
  | _ => false

/-- Whether two values are one and the same number that is not equal to itself. -/
def isSameNan (a b : Value) : Bool :=
  match a.identity?, b.identity? with
  | some i, some j => i == j
  | _, _ => false

/-- The text a value is, if it is one. -/
def text? (v : Value) : Option String :=
  match v.content with
  | .str s => some s
  | _ => Option.none

/-- The integer a value is, if it is one and no truth value. -/
def integer? (v : Value) : Option Int :=
  match v.content with
  | .int i => some i
  | _ => Option.none

/-- The truth value a value is, if it is one. -/
def boolean? (v : Value) : Option Bool :=
  match v with
  | .bool b => some b
  | _ => Option.none

/-- Whether a value is the value that stands for nothing. -/
def isNone (v : Value) : Bool :=
  match v with
  | .none => true
  | _ => false

end Value

/-- A class of an explored program. -/
structure TypeInfo where
  name : String
  qualname : String
  /-- Its own attributes, among them the name of its module. -/
  attributes : Bindings Value
  /-- The class itself apart, the classes in which attributes are looked up, in order. -/
  ancestors : List Value
  deriving Inhabited

/-- A function of an explored program. -/
structure FunctionInfo where
  /-- The index of its code. -/
  code : Nat
  qualname : String
  /-- The module in which global names are looked up. -/
  globals : Address
  defaults : List Value
  /-- The cells of the variables it shares with the functions around it. -/
  closure : List Address
  /-- The attributes it has been given. -/
  attributes : Bindings Value
  deriving Inhabited

/-- How an iterator goes on. -/
inductive Supply where
  /-- Through the given values. -/
  | values (rest : List Value)
  /-- Through the items of a list from an index on, as the list is by then. -/
  | list (a : Address) (index : Nat)
  /-- Through equally spaced integers. -/
  | integers (next step : Int) (left : Nat)
  /-- A function of the items of other iterators. -/
  | mapped (function : Value) (sources : List Value)
  deriving Inhabited

/-- An object on the heap. -/
inductive Obj where
  | list (items : Array Value)
  | set (frozen : Bool) (items : Array Value)
  | dict (entries : Array (Value × Value))
  /-- A module with its variables. -/
  | module (bindings : Bindings Value)
  /-- The names bound so far by the body of a class. -/
  | body (bindings : Bindings Value)
  | type (info : TypeInfo)
  /-- An instance of a class with its own attributes. -/
  | object (type : Address) (attributes : Bindings Value)
  /-- An instance without attributes of its own, by the name of its class. -/
  | sealed (typeName : String)
  | exception (type : Value) (arguments : List Value) (attributes : Bindings Value)
  | function (info : FunctionInfo)
  /-- A callable object of another type, by the names of the type and of the object. -/
  | callable (typeName qualname : String)
  /-- A function together with its first argument. -/
  | bound (receiver callee : Value)
  /-- A variable that several functions share. -/
  | cell (content : Option Value)
  | range (start stop step : Int)
  | iterator (typeName : String) (supply : Supply)
  /-- A suspended function, by its number. -/
  | generator (number : Nat)
  deriving Inhabited

/-- The objects of a program, by address. -/
structure Heap where
  objects : Array Obj
  deriving Inhabited

namespace Heap

/-- The heap without objects. -/
def empty : Heap := ⟨#[]⟩

/-- The object at an address. -/
def get? (h : Heap) (a : Address) : Option Obj := h.objects[a]?

/-- Replaces the object at an address. -/
def set (h : Heap) (a : Address) (o : Obj) : Heap := ⟨h.objects.setIfInBounds a o⟩

/-- A new object and its address. -/
def allocate (h : Heap) (o : Obj) : Address × Heap := (h.objects.size, ⟨h.objects.push o⟩)

/-- A value that has just come about. If it has a part that is not a number, then it is a new
object. -/
def settle (h : Heap) (v : Value) : Value × Heap :=
  if v.isNan then
    let (a, h) := h.allocate (.sealed "float")
    (.nan (.made a) v, h)
  else (v, h)

/-- The object a value refers to. -/
def object? (h : Heap) (v : Value) : Option Obj :=
  match v.content with
  | .ref a => h.get? a
  | _ => none

/-- The variables of a module or of the body of a class. -/
def «variables» (h : Heap) (a : Address) : Bindings Value :=
  match h.get? a with
  | some (.module vs) | some (.body vs) => vs
  | _ => .empty

/-- Replaces the variables of a module or of the body of a class. -/
def setVariables (h : Heap) (a : Address) (vs : Bindings Value) : Heap :=
  match h.get? a with
  | some (.module _) => h.set a (.module vs)
  | some (.body _) => h.set a (.body vs)
  | _ => h

/-- What a class gives as the name of the module it was defined in. -/
def homeOf (info : TypeInfo) : Value := (info.attributes.get? "__module__").getD (.str "builtins")

/-- The name of the module a class was defined in. -/
def moduleOf (info : TypeInfo) : String := (homeOf info).text?.getD ""

/-- The qualified name of the class that a value stands for. -/
def typeQualname (h : Heap) (v : Value) : String :=
  match v with
  | .builtin (.type _ qualname) => qualname
  | .ref a =>
    match h.get? a with
    | some (.type info) => info.qualname
    | _ => "type"
  | _ => "type"

/-- The qualified name of the class of an object. -/
def objectType (h : Heap) : Obj → String
  | .list _ => "list"
  | .set frozen _ => if frozen then "frozenset" else "set"
  | .dict _ => "dict"
  | .module _ => "module"
  | .body _ => "dict"
  | .type _ => "type"
  | .object t _ => h.typeQualname (.ref t)
  | .sealed typeName => typeName
  | .exception t _ _ => h.typeQualname t
  | .function _ => "function"
  | .callable typeName _ => typeName
  | .bound _ (.builtin _) => "builtin_function_or_method"
  | .bound _ _ => "method"
  | .cell _ => "cell"
  | .range .. => "range"
  | .iterator typeName _ => typeName
  | .generator _ => "generator"

/-- The qualified name of the class of a value. -/
def typeNameOf (h : Heap) (v : Value) : String :=
  match v with
  | .none => "NoneType"
  | .bool _ => "bool"
  | .int _ => "int"
  | .float _ => "float"
  | .complex .. => "complex"
  | .str _ => "str"
  | .bytes _ => "bytes"
  | .tuple _ => "tuple"
  | .nan _ (.complex ..) => "complex"
  | .nan .. => "float"
  | .derived type .. => type
  | .builtin (.function _) => "builtin_function_or_method"
  | .builtin (.type ..) => "type"
  | .ref a =>
    match h.get? a with
    | some o => h.objectType o
    | none => "object"

/-- The qualified name of a callable object that is no class. -/
def callableName? (h : Heap) (v : Value) : Option String :=
  match v with
  | .builtin (.function qualname) => some qualname
  | .ref a =>
    match h.get? a with
    | some (.function info) => some info.qualname
    | some (.callable _ qualname) => some qualname
    | some (.bound _ (.builtin (.function qualname))) => some qualname
    | some (.bound _ (.ref f)) =>
      match h.get? f with
      | some (.function info) => some info.qualname
      | some (.callable _ qualname) => some qualname
      | _ => none
    | _ => none
  | _ => none

end Heap

end StateAtlas
