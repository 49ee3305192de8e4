import StateAtlas.Code.Argument
import StateAtlas.Code.Attribute
import StateAtlas.Code.Iteration

set_option autoImplicit false

/-!
# Calls

Functions of the program are entered; classes make an instance and initialize it; built-in
functions answer at once or leave a task that waits for a value.

## Main definitions

* `StateAtlas.Process.enter` — enters a function of the program.
* `StateAtlas.Process.instantiate` — makes an instance of a class of the program.
* `StateAtlas.Process.call` — calls a value.
-/

namespace StateAtlas

namespace Process

/-! ### Functions of the program -/

/-- The slots of a function that has been called: its parameters, and nothing in the others. -/
def slots (c : CodeObject) (values : List Value) : Array Slot :=
  let bound := values.map Slot.value
  (bound ++ List.replicate (c.slotNames.length - bound.length) Slot.unbound).toArray

/-- Adds a task that runs code in a new frame. -/
def start (p : Process) (c : CodeObject) (index : Nat) (file : String) (globals : Address)
    (closure : List Address) (locals : Locals) : Process :=
  let (f, p) := p.addFrame {
    globals
    name := c.name
    qualname := some c.qualname
    file
    line := c.firstLine
    position := -1
    optimized := c.optimized
    caller := p.currentFrame
    locals }
  (p.push (.activation {
    frame := f
    code := index
    current := 0
    next := 0
    stack := []
    keywords := []
    cells := []
    closure
    entering := false
    generator := none })).going .run

/-- Enters a function of the program. -/
def enter (p : Process) (codes : Array CodeObject) (file : String) (info : FunctionInfo)
    (arguments : List Value) (named : List (String × Value)) : Process :=
  match codes[info.code]? with
  | none => p.fail "SystemError" "unknown code"
  | some c =>
    match c.bindArguments info.defaults arguments named with
    | .error r => p.throw r
    | .ok (values, extra) =>
      let (values, p) :=
        if c.collectsKeywords then
          let (a, p) := p.allocate (.dict (extra.map fun (n, v) => (.str n, v)).toArray)
          (values ++ [.ref a], p)
        else (values, p)
      p.start c info.code file info.globals info.closure
        (.slots c.slotNames.toArray (slots c values))

/-! ### Classes -/

/-- Prepares a new instance by the function of its class, if it has one. -/
def prepare (p : Process) (type object : Value) (arguments : List Value)
    (named : List (String × Value)) (without : Process → Process) : Process :=
  match p.heap.typeAttribute? type "__init__" with
  | some f => (p.push (.construct object)).going (.call f (object :: arguments) named)
  | none => without p

/-- Makes an instance of a class of the program or of a class of exceptions. -/
def instantiate (p : Process) (type : Value) (arguments : List Value)
    (named : List (String × Value)) : Process :=
  if p.heap.isExceptionType type then
    let (e, h) := p.heap.newException type arguments
    (p.withHeap h).prepare type e arguments named fun p =>
      if named.isEmpty then p.deliver e
      else p.fail "TypeError" (p.heap.typeName type ++ "() takes no keyword arguments")
  else
    match type with
    | .ref t =>
      let (a, p) := p.allocate (.object t .empty)
      p.prepare type (.ref a) arguments named fun p =>
        if arguments.isEmpty && named.isEmpty then p.deliver (.ref a)
        else p.fail "TypeError" (p.heap.typeName type ++ "() takes no arguments")
    | _ => p.fail "TypeError" ("cannot create " ++ Quoted.text (p.heap.typeName type) ++ " instances")

/-- The class that a body has described, once it has run; the body may have left a cell for it. -/
def defineClass (p : Process) (name : String) (parents : List Value) (body : Address)
    (result : Value) : Process :=
  let bindings := p.heap.variables body
  let qualname := ((bindings.get? "__qualname__").bind Value.text?).getD name
  let own := (bindings.erase "__qualname__").erase "__classcell__"
  let attributes := if own.contains "__doc__" then own else own.set "__doc__" .none
  let parents := if parents.isEmpty then [.ofType "object"] else parents
  match parents.find? fun t => !p.heap.isType t, linearize p.heap parents with
  | some v, _ =>
    p.fail "TypeError" (Quoted.text (p.heap.typeNameFor v) ++ " object is no base class")
  | none, none =>
    p.fail "TypeError" ("Cannot create a consistent method resolution\norder (MRO) for bases " ++
      String.intercalate ", " (parents.map p.heap.typeName))
  | none, some ancestors =>
    let (a, p) := p.allocate (.type ⟨name, qualname, attributes, ancestors⟩)
    let p :=
      match p.heap.object? result, result with
      | some (.cell _), .ref cell => p.withHeap (p.heap.set cell (.cell (some (.ref a))))
      | _, _ => p
    p.deliver (.ref a)

/-- Runs the body of a class in a namespace of its own. -/
def buildClass (p : Process) (codes : Array CodeObject) (file : String) (arguments : List Value) :
    Process :=
  match arguments with
  | f :: .str name :: parents =>
    match p.heap.object? f with
    | some (.function info) =>
      match codes[info.code]? with
      | some c =>
        let (body, p) := p.allocate (.body .empty)
        (p.push (.define name parents body)).start c info.code file info.globals info.closure
          (.variables body)
      | none => p.fail "SystemError" "unknown code"
    | _ => p.fail "TypeError" "__build_class__: func must be a function"
  | _ => p.fail "TypeError" "__build_class__: not enough arguments"

/-! ### Built-in functions -/

/-- The exception for an integer with too many digits to be written. -/
def tooLong : Raised := .ofText "ValueError" Fault.integerTooLong.message

/-- The texts of values. -/
def shownAll? (p : Process) (vs : List Value) : Option (List String) :=
  vs.mapM p.heap.shown?

/-- The text that a named argument of a printing function gives. -/
def printPart (p : Process) (named : List (String × Value)) (name fallback : String) :
    Except Raised String :=
  match Bindings.find? name named with
  | none | some .none => .ok fallback
  | some v =>
    match v.text? with
    | some s => .ok s
    | none =>
      .error (.ofText "TypeError" (name ++ " must be None or a string, not " ++
        p.heap.typeNameFor v))

/-- Prints values with a text between them and one at the end. -/
def print (p : Process) (arguments : List Value) (named : List (String × Value)) : Move Process :=
  match named.find? fun e => !(["sep", "end", "file", "flush"].contains e.1) with
  | some (name, _) =>
    .internal (p.fail "TypeError" (Quoted.text name ++ " is an invalid keyword argument for print()"))
  | none =>
    match p.printPart named "sep" " ", p.printPart named "end" "\n", p.shownAll? arguments with
    | .error r, _, _ | _, .error r, _ => .internal (p.throw r)
    | _, _, none => .internal (p.throw tooLong)
    | .ok sep, .ok last, some texts =>
      .print (String.intercalate sep texts ++ last) (p.deliver .none)

/-- The number of items of a value, if it has items. -/
def length? (p : Process) (v : Value) : Option Nat :=
  match v.content with
  | .tuple items => some items.length
  | .str s => some s.length
  | .bytes bs => some bs.length
  | _ =>
    match p.heap.object? v with
    | some (.list items) | some (.set _ items) => some items.size
    | some (.dict entries) => some entries.size
    | some (.range start stop step) => some (rangeLength start stop step)
    | _ => none

/-- Inserts a value into a sorted list after all values that are not greater. -/
def insertSorted (h : Heap) (v : Value) : List Value → Except Raised (List Value)
  | [] => .ok [v]
  | x :: xs =>
    match Comparison.less.apply h v x with
    | .error r => .error r
    | .ok true => .ok (v :: x :: xs)
    | .ok false => (insertSorted h v xs).map (x :: ·)

/-- A list in ascending order; equal values keep their order. -/
def sorted (h : Heap) (vs : List Value) : Except Raised (List Value) :=
  vs.foldlM (fun done v => insertSorted h v done) []

/-- Sorts a list in place. -/
def sortList (p : Process) (a : Address) (items : Array Value) (named : List (String × Value)) :
    Process :=
  match named.find? fun e => e.1 != "reverse" with
  | some (name, _) =>
    p.fail "TypeError" (Quoted.text name ++ " is an invalid keyword argument for sort()")
  | none =>
    let down := ((Bindings.find? "reverse" named).map p.heap.truthy).getD false
    let input := if down then items.toList.reverse else items.toList
    match sorted p.heap input with
    | .error r => p.throw r
    | .ok vs =>
      (p.withHeap (p.heap.set a (.list (if down then vs.reverse else vs).toArray))).deliver .none

/-- Removes an item of a list. -/
def popItem (p : Process) (a : Address) (items : Array Value) (index : Value) : Process :=
  match index.index? with
  | none =>
    p.fail "TypeError" (Quoted.text (p.heap.typeNameFor index) ++
      " object cannot be interpreted as an integer")
  | some i =>
    if items.isEmpty then p.fail "IndexError" "pop from empty list"
    else
      match place? items.size i with
      | none => p.fail "IndexError" "pop index out of range"
      | some k =>
        (p.withHeap (p.heap.set a (.list (items.eraseIdxIfInBounds k)))).deliver
          (items[k]?.getD .none)

/-- The exception for a method with one argument that is called with another number. -/
def oneArgument (name : String) (given : Nat) : Raised :=
  .ofText "TypeError" (name ++ "() takes exactly one argument (" ++ toString given ++ " given)")

/-- Calls a method of a list or set. -/
def callMethod (p : Process) (name : String) (receiver : Value) (arguments : List Value)
    (named : List (String × Value)) : Process :=
  match p.heap.object? receiver, receiver with
  | some (.list items), .ref a =>
    match name, arguments with
    | "list.append", [v] => (p.withHeap (p.heap.set a (.list (items.push v)))).deliver .none
    | "list.append", vs => p.throw (oneArgument name vs.length)
    | "list.pop", [] => p.popItem a items (.int (-1))
    | "list.pop", [i] => p.popItem a items i
    | "list.pop", vs =>
      p.fail "TypeError" ("pop expected at most 1 argument, got " ++ toString vs.length)
    | "list.sort", [] => p.sortList a items named
    | _, _ => p.fail "TypeError" "sort() takes no positional arguments"
  | some (.set false items), .ref a =>
    match arguments with
    | [v] =>
      match p.heap.unhashable? v with
      | some type => p.fail "TypeError" ("unhashable type: " ++ Quoted.text type)
      | none => (p.withHeap (p.heap.set a (.set false (p.heap.addMember items v)))).deliver .none
    | vs => p.throw (oneArgument name vs.length)
  | _, _ =>
    p.fail "TypeError" ("descriptor " ++ Quoted.text (lastPiece '.' name) ++
      " does not apply to a " ++ Quoted.text (p.heap.typeNameFor receiver) ++ " object")

/-- Asks for a value that is left open. -/
def request (p : Process) (r : ChoiceRequest Value) : Move Process :=
  match r.count with
  | .ok n => .choice n (p.going (.choosing r))
  | .error f => .internal (p.fail "ValueError" f.message)

/-- The arguments of a function with named parameters, all of which must be given. -/
def parameters? (names : List String) (arguments : List Value) (named : List (String × Value)) :
    Option (List Value) :=
  if names.length < arguments.length then none
  else
    ((names.drop arguments.length).mapM fun n => Bindings.find? n named).map (arguments ++ ·)

/-- The exception for a function that is called with the wrong arguments. -/
def wrongArguments (name : String) : Raised :=
  .ofText "TypeError" (name ++ "() called with the wrong arguments")

/-- Asks the running search to end. -/
def terminate (p : Process) (arguments : List Value) : Move Process :=
  match arguments with
  | [v] =>
    match p.heap.object? v with
    | some (.sealed "Search") => .terminate (p.deliver .none)
    | _ => .internal (p.throw (p.heap.noAttribute v "terminated"))
  | _ => .internal (p.throw (wrongArguments "Search.terminate"))

/-- Calls a built-in function. -/
def callFunction (p : Process) (codes : Array CodeObject) (file : String) (name : String)
    (arguments : List Value) (named : List (String × Value)) : Move Process :=
  match name, arguments with
  | "print", vs => p.print vs named
  | "__build_class__", vs => .internal (p.buildClass codes file vs)
  | "len", [v] =>
    .internal <|
      match p.length? v with
      | some n => p.deliver (.int n)
      | none =>
        p.fail "TypeError" ("object of type " ++ Quoted.text (p.heap.typeNameFor v) ++
          " has no len()")
  | "len", vs => .internal (p.throw (oneArgument name vs.length))
  | "next", [i] => .internal ((p.push (.fetch none)).going (.ask i))
  | "next", [i, v] => .internal ((p.push (.fetch (some v))).going (.ask i))
  | "next", vs =>
    .internal (p.fail "TypeError" ("next expected at " ++
      (if vs.isEmpty then "least 1" else "most 2") ++ " argument" ++
      (if vs.isEmpty then "" else "s") ++ ", got " ++ toString vs.length))
  | "setattr", [v, .str field, x] =>
    .internal <|
      match p.heap.storeAttribute v field x with
      | .ok h => (p.withHeap h).deliver .none
      | .error r => p.throw r
  | "setattr", [_, n, _] =>
    .internal (p.fail "TypeError" ("attribute name must be string, not " ++
      Quoted.text (p.heap.typeNameFor n)))
  | "setattr", vs =>
    .internal (p.fail "TypeError" ("setattr expected 3 arguments, got " ++ toString vs.length))
  | "Verify.get_boolean", vs =>
    match parameters? [] vs named with
    | some _ => p.request .boolean
    | none => .internal (p.throw (wrongArguments name))
  | "Verify.get_int", vs =>
    match (parameters? ["low", "high"] vs named).map (·.map Value.index?) with
    | some [some low, some high] => p.request (.within low high)
    | _ => .internal (p.throw (wrongArguments name))
  | "Verify.get_choice", vs =>
    match parameters? ["options"] vs named with
    | some [v] => .internal (p.collect v .choose)
    | _ => .internal (p.throw (wrongArguments name))
  | "Search.terminate", vs => p.terminate vs
  | name, receiver :: vs => .internal (p.callMethod name receiver vs named)
  | name, [] => .internal (p.throw (wrongArguments name))

/-- The integers of the arguments of a range. -/
def rangeOf (p : Process) (arguments : List Value) : Process :=
  match arguments.find? fun v => v.index?.isNone, arguments.filterMap Value.index? with
  | some v, _ =>
    p.fail "TypeError" (Quoted.text (p.heap.typeNameFor v) ++
      " object cannot be interpreted as an integer")
  | none, [stop] => made 0 stop 1
  | none, [start, stop] => made start stop 1
  | none, [start, stop, step] =>
    if step == 0 then p.fail "ValueError" "range() arg 3 must not be zero" else made start stop step
  | none, is =>
    p.fail "TypeError" ("range expected at " ++ (if is.isEmpty then "least 1" else "most 3") ++
      " argument" ++ (if is.isEmpty then "" else "s") ++ ", got " ++ toString is.length)
where
  /-- A new range. -/
  made (start stop step : Int) : Process :=
    let (a, p) := p.allocate (.range start stop step)
    p.deliver (.ref a)

/-- Calls a built-in class. -/
def callType (p : Process) (module qualname : String) (arguments : List Value)
    (named : List (String × Value)) : Process :=
  let type : Value := .builtin (.type module qualname)
  match module, qualname, arguments with
  | "builtins", "range", vs => p.rangeOf vs
  | "builtins", "set", [] =>
    let (a, p) := p.allocate (.set false #[])
    p.deliver (.ref a)
  | "builtins", "set", [v] => p.collect v .set
  | "builtins", "set", vs =>
    p.fail "TypeError" ("set expected at most 1 argument, got " ++ toString vs.length)
  | "builtins", "list", [] =>
    let (a, p) := p.allocate (.list #[])
    p.deliver (.ref a)
  | "builtins", "list", [v] => p.collect v .list
  | "builtins", "tuple", [] => p.deliver (.tuple [])
  | "builtins", "tuple", [v] => p.collect v .tuple
  | "builtins", "type", [v] => p.deliver (p.heap.typeOf v)
  | "builtins", "type", _ => p.fail "TypeError" "type() takes 1 or 3 arguments"
  | "builtins", "map", f :: v :: vs =>
    match p.iterators (v :: vs) with
    | .ok (sources, p) =>
      let (a, p) := p.allocate (.iterator "map" (.mapped f sources))
      p.deliver (.ref a)
    | .error r => p.throw r
  | "builtins", "map", _ => p.fail "TypeError" "map() must have at least two arguments."
  | "builtins", "bool", [] => p.deliver (.bool false)
  | "builtins", "bool", [v] => p.deliver (.bool (p.heap.truthy v))
  | "builtins", "str", [] => p.deliver (.str "")
  | "builtins", "str", [v] =>
    match p.heap.shown? v with
    | some s => p.deliver (.str s)
    | none => p.throw tooLong
  | "builtins", "object", [] =>
    let (a, p) := p.allocate (.sealed "object")
    p.deliver (.ref a)
  | "re._constants", "_NamedIntConstant", [.int i, .str text] =>
    p.deliver (.derived qualname (some text) (.int i))
  | _, _, vs => p.instantiate type vs named

/-- Calls a value. -/
def call (p : Process) (codes : Array CodeObject) (file : String) (callee : Value)
    (arguments : List Value) (named : List (String × Value)) : Move Process :=
  match callee with
  | .builtin (.function name) => p.callFunction codes file name arguments named
  | .builtin (.type module qualname) => .internal (p.callType module qualname arguments named)
  | _ =>
    match p.heap.object? callee with
    | some (.function info) => .internal (p.enter codes file info arguments named)
    | some (.bound receiver f) => .internal (p.going (.call f (receiver :: arguments) named))
    | some (.type _) => .internal (p.instantiate callee arguments named)
    | some (.object ..) =>
      match p.heap.typeAttribute? (p.heap.typeOf callee) "__call__" with
      | some f => .internal (p.going (.call f (callee :: arguments) named))
      | none => .internal (notCallable p)
    | _ => .internal (notCallable p)
where
  /-- Raises the exception for a value that cannot be called. -/
  notCallable (p : Process) : Process :=
    p.fail "TypeError" (Quoted.text (p.heap.typeNameFor callee) ++ " object is not callable")

end Process

end StateAtlas
