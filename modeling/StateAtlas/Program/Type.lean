import StateAtlas.Program.Value

set_option autoImplicit false

/-!
# Classes

Every value has a class, and every class but the most general one has ancestors, in which
attributes are looked up and by which exceptions are caught.

## Main definitions

* `StateAtlas.builtinParents` — the built-in classes, each with the class right above it.
* `StateAtlas.Heap.typeOf` — the class of a value.
* `StateAtlas.Heap.ancestors` — the classes above a class, nearest first.
* `StateAtlas.Heap.isSubtype` — whether a class is another one or lies below it.
* `StateAtlas.linearize` — the ancestors of a class with several parents.
-/

namespace StateAtlas

namespace Value

/-- A class that every program finds in its environment. -/
def ofType (qualname : String) : Value := .builtin (.type "builtins" qualname)

/-- The class of the signal that ends a path. -/
def stopType : Value := .builtin (.type "statelabel.search.dfs" "_StopPath")

/-- Whether two values are one and the same class or object. -/
def isSame (a b : Value) : Bool :=
  match a, b with
  | .ref a, .ref b => a == b
  | .builtin a, .builtin b => a == b
  | _, _ => false

end Value

/-- The built-in classes, each with the class right above it. -/
def builtinParents : List (String × String) :=
  [("int", "object"), ("bool", "int"), ("float", "object"), ("complex", "object"),
   ("str", "object"), ("bytes", "object"), ("list", "object"), ("tuple", "object"),
   ("dict", "object"), ("set", "object"), ("frozenset", "object"), ("range", "object"),
   ("map", "object"), ("type", "object"), ("NoneType", "object"), ("function", "object"),
   ("BaseException", "object"), ("SystemExit", "BaseException"),
   ("KeyboardInterrupt", "BaseException"), ("GeneratorExit", "BaseException"),
   ("Exception", "BaseException"), ("ArithmeticError", "Exception"),
   ("FloatingPointError", "ArithmeticError"), ("OverflowError", "ArithmeticError"),
   ("ZeroDivisionError", "ArithmeticError"), ("AssertionError", "Exception"),
   ("AttributeError", "Exception"), ("BufferError", "Exception"), ("EOFError", "Exception"),
   ("ImportError", "Exception"), ("ModuleNotFoundError", "ImportError"),
   ("LookupError", "Exception"), ("IndexError", "LookupError"), ("KeyError", "LookupError"),
   ("MemoryError", "Exception"), ("NameError", "Exception"), ("UnboundLocalError", "NameError"),
   ("OSError", "Exception"), ("BlockingIOError", "OSError"), ("ChildProcessError", "OSError"),
   ("ConnectionError", "OSError"), ("BrokenPipeError", "ConnectionError"),
   ("ConnectionAbortedError", "ConnectionError"), ("ConnectionRefusedError", "ConnectionError"),
   ("ConnectionResetError", "ConnectionError"), ("FileExistsError", "OSError"),
   ("FileNotFoundError", "OSError"), ("InterruptedError", "OSError"),
   ("IsADirectoryError", "OSError"), ("NotADirectoryError", "OSError"),
   ("PermissionError", "OSError"), ("ProcessLookupError", "OSError"), ("TimeoutError", "OSError"),
   ("ReferenceError", "Exception"), ("RuntimeError", "Exception"),
   ("NotImplementedError", "RuntimeError"), ("RecursionError", "RuntimeError"),
   ("StopIteration", "Exception"), ("StopAsyncIteration", "Exception"),
   ("SyntaxError", "Exception"), ("IndentationError", "SyntaxError"),
   ("TabError", "IndentationError"), ("SystemError", "Exception"), ("TypeError", "Exception"),
   ("ValueError", "Exception"), ("UnicodeError", "ValueError"),
   ("UnicodeDecodeError", "UnicodeError"), ("UnicodeEncodeError", "UnicodeError"),
   ("UnicodeTranslateError", "UnicodeError"), ("Warning", "Exception"),
   ("BytesWarning", "Warning"), ("DeprecationWarning", "Warning"), ("EncodingWarning", "Warning"),
   ("FutureWarning", "Warning"), ("ImportWarning", "Warning"),
   ("PendingDeprecationWarning", "Warning"), ("ResourceWarning", "Warning"),
   ("RuntimeWarning", "Warning"), ("SyntaxWarning", "Warning"), ("UnicodeWarning", "Warning"),
   ("UserWarning", "Warning")]

/-- The classes above a built-in class, nearest first; `fuel` bounds their number. -/
def builtinChain (fuel : Nat) (qualname : String) : List Value :=
  match fuel with
  | 0 => []
  | fuel + 1 =>
    match Bindings.find? qualname builtinParents with
    | some parent => .ofType parent :: builtinChain fuel parent
    | none => []

/-- The classes above a class that comes with the environment, nearest first. -/
def builtinAncestors (module qualname : String) : List Value :=
  match module, qualname with
  | "builtins", _ => builtinChain 8 qualname
  | "zlib", "error" => .ofType "Exception" :: builtinChain 8 "Exception"
  | "statelabel.search.dfs", "_StopPath" => .ofType "BaseException" :: builtinChain 8 "BaseException"
  | _, _ => [.ofType "object"]

namespace Heap

/-- The classes above a class, nearest first. -/
def ancestors (h : Heap) (t : Value) : List Value :=
  match t with
  | .builtin (.type module qualname) => builtinAncestors module qualname
  | .ref a =>
    match h.get? a with
    | some (.type info) => info.ancestors
    | _ => []
  | _ => []

/-- Whether a class is another one or lies below it. -/
def isSubtype (h : Heap) (t above : Value) : Bool :=
  t.isSame above || (h.ancestors t).any (·.isSame above)

/-- Whether a value is a class. -/
def isType (h : Heap) (v : Value) : Bool :=
  match v with
  | .builtin (.type ..) => true
  | .ref a =>
    match h.get? a with
    | some (.type _) => true
    | _ => false
  | _ => false

/-- Whether a value is a class of exceptions. -/
def isExceptionType (h : Heap) (v : Value) : Bool :=
  h.isType v && h.isSubtype v (.ofType "BaseException")

/-- The class of a value. -/
def typeOf (h : Heap) (v : Value) : Value :=
  match h.object? v with
  | some (.object t _) => .ref t
  | some (.exception t _ _) => t
  | _ => .ofType (h.typeNameOf v)

/-- Whether a value is an instance of a class. -/
def isInstance (h : Heap) (v t : Value) : Bool := h.isSubtype (h.typeOf v) t

/-- The short name of a class. -/
def typeName (h : Heap) (t : Value) : String :=
  match t with
  | .builtin (.type _ qualname) => qualname
  | .ref a =>
    match h.get? a with
    | some (.type info) => info.name
    | _ => "type"
  | _ => "type"

/-- The name of the module of a class. -/
def typeModule (h : Heap) (t : Value) : String :=
  match t with
  | .builtin (.type module _) => module
  | .ref a =>
    match h.get? a with
    | some (.type info) => moduleOf info
    | _ => "builtins"
  | _ => "builtins"

/-- The short name of the class of a value. -/
def typeNameFor (h : Heap) (v : Value) : String := h.typeName (h.typeOf v)

/-- A new exception of a class. -/
def newException (h : Heap) (t : Value) (arguments : List Value) : Value × Heap :=
  let (a, h) := h.allocate (.exception t arguments .empty)
  (.ref a, h)

end Heap

/-- The first head of some lists that is in the tail of none of them. -/
def nextAncestor? (lists : List (List Value)) : Option Value :=
  lists.findSome? fun list =>
    match list with
    | [] => none
    | c :: _ => if lists.any fun l => (l.drop 1).any (·.isSame c) then none else some c

/-- Merges lists of ancestors, keeping the order of each; `fuel` bounds the length. -/
def mergeAncestors (fuel : Nat) (lists : List (List Value)) : Option (List Value) :=
  match fuel with
  | 0 => some []
  | fuel + 1 =>
    if lists.all List.isEmpty then some []
    else
      match nextAncestor? lists with
      | none => none
      | some c =>
        (mergeAncestors fuel (lists.map fun l =>
          match l with
          | x :: xs => if x.isSame c then xs else l
          | [] => [])).map (c :: ·)

/-- The ancestors of a class with the given parents, or `none` if the orders of the parents'
ancestors contradict each other. -/
def linearize (h : Heap) (parents : List Value) : Option (List Value) :=
  let lists := parents.map (fun p => p :: h.ancestors p) ++ [parents]
  mergeAncestors (lists.flatten.length + 1) lists

end StateAtlas
