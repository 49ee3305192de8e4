import StateAtlas.Code.Delivery
import StateAtlas.Code.Subscript
import StateAtlas.Code.Variable

set_option autoImplicit false

/-!
# Executing operations

Every operation takes its operands from the stack of the topmost activation and pushes its result.

## Main definitions

* `StateAtlas.CodeContext` — the code of a program, and the operation's own place in it.
* `StateAtlas.CodeContext.execute` — executes an operation.
-/

namespace StateAtlas

/-- What an operation finds when it is executed: the code of the program, the process, and the
topmost activation with the tasks below it. -/
structure CodeContext where
  codes : Array CodeObject
  file : String
  process : Process
  code : CodeObject
  activation : Activation
  rest : List Task

namespace CodeContext

variable (x : CodeContext)

/-- Goes on with an activation after a change of the process. -/
def goOn (p : Process) (a : Activation) : Process := p.resume a x.rest

/-- Replaces some operands by a result. -/
def result (operands : Nat) (v : Value) : Process :=
  x.goOn x.process ((x.activation.drop operands).push v)

/-- Replaces some operands by a result that comes with a new heap. -/
def resultIn (operands : Nat) (v : Value) (h : Heap) : Process :=
  x.goOn (x.process.withHeap h) ((x.activation.drop operands).push v)

/-- Drops some operands after a change of the process. -/
def done (operands : Nat) (p : Process) : Process := x.goOn p (x.activation.drop operands)

/-- Raises an exception. -/
def throw (r : Raised) : Process := x.process.throw r

/-- Replaces some operands by a result, or raises an exception. -/
def resultOf (operands : Nat) : Except Raised Value → Process
  | .ok v => x.result operands v
  | .error r => x.throw r

/-- Replaces some operands by a result with a new heap, or raises an exception. -/
def resultInOf (operands : Nat) : Except Raised (Value × Heap) → Process
  | .ok (v, h) => x.resultIn operands v h
  | .error r => x.throw r

/-- Drops some operands, or raises an exception. -/
def doneOf (operands : Nat) : Except Raised Process → Process
  | .ok p => x.done operands p
  | .error r => x.throw r

/-- Drops some operands and lets the activation wait for a value. -/
def wait (operands : Nat) : Process :=
  { x.process with tasks := .activation (x.activation.drop operands) :: x.rest }

/-- The value below some others on the stack. -/
def peek (n : Nat) : Value := x.activation.peek n

/-! ### Stack and variables -/

/-- Exchanges the top of the stack with another item. -/
def swap (n : Nat) : Process :=
  let stack := x.activation.stack
  match stack, stack[n - 1]? with
  | top :: _, some item =>
    x.goOn x.process { x.activation with stack := (stack.set 0 item).set (n - 1) top }
  | _, _ => x.goOn x.process x.activation

/-- Pushes an item. -/
def pushItem (i : Item) : Process :=
  x.goOn x.process { x.activation with stack := i :: x.activation.stack }

/-- Pushes the attribute of the top that is about to be called, and the receiver below or the mark
that there is none. -/
def loadMethod (name : String) : Process :=
  match x.process.heap.loadMethod (x.peek 0) name with
  | .error r => x.throw r
  | .ok (f, receiver) =>
    let a := x.activation.drop 1
    match receiver with
    | some v => x.goOn x.process ((a.push f).push v)
    | none => x.goOn x.process ({ a with stack := .null :: a.stack }.push f)

/-! ### Containers -/

/-- Extends the list that lies some items deep with the items of the top. -/
def extendList (n : Nat) : Process :=
  let v := x.peek 0
  match (x.activation.drop 1).peek (n - 1), x.process.iterator v with
  | .ref a, .ok (i, p) =>
    let p := { p with tasks := .activation (x.activation.drop 1) :: x.rest }
    (p.push (.collect i #[] (.extend a false))).going (.ask i)
  | _, _ =>
    x.process.fail "TypeError" ("Value after * must be an iterable, not " ++
      x.process.heap.typeNameFor v)

/-- Appends the top to the list that lies some items deep. -/
def appendList (n : Nat) : Process :=
  let v := x.peek 0
  let list := (x.activation.drop 1).peek (n - 1)
  match list, x.process.heap.object? list with
  | .ref a, some (.list items) =>
    x.done 1 (x.process.withHeap (x.process.heap.set a (.list (items.push v))))
  | _, _ => x.done 1 x.process

/-- Keys and values that alternate. -/
def pairs : List Value → List (Value × Value)
  | k :: v :: rest => (k, v) :: pairs rest
  | _ => []

/-- Makes a text of the top, by its own text or as it stands inside others. -/
def format (flags : Nat) : Process :=
  let operands := if 4 ≤ flags then 2 else 1
  let v := x.peek (operands - 1)
  let text := if flags % 4 < 2 then x.process.heap.shown? v else x.process.heap.quoted? v
  match text with
  | some s => x.result operands (.str s)
  | none => x.throw Process.tooLong

/-- Applies an operator to the two topmost values. In place, a list takes the items of any other
value at its end, and lists and sets stay the same objects. -/
def operate (op : Operator) (inPlace : Bool) : Process :=
  let h := x.process.heap
  let left := x.peek 1
  let right := x.peek 0
  match inPlace, h.object? left, left, op with
  | true, some (.list _), .ref a, .add => (x.wait 2).collect right (.extend a true)
  | true, some (.list _), .ref a, _ | true, some (.set ..), .ref a, _ =>
    match op.apply true h left right with
    | .ok (v, h) =>
      match h.object? v with
      | some o => x.resultIn 2 left (h.set a o)
      | none => x.resultIn 2 v h
    | .error r => x.throw r
  | _, _, _, _ => x.resultInOf 2 (op.apply inPlace h left right)

/-- Whether the value below the top is in the top. -/
def membership (inverted : Bool) : Process :=
  let container := x.peek 0
  let v := x.peek 1
  match x.process.heap.contains? container v with
  | .ok (some b) => x.result 2 (.bool (b != inverted))
  | .ok none => (x.wait 2).collect container (.contains v inverted)
  | .error r => x.throw r

/-! ### Calls, functions and modules -/

/-- Calls the value below some arguments. -/
def call (n : Nat) : Process :=
  let a := x.activation
  let names := a.keywords
  let rest := { a.drop (n + 2) with keywords := [] }
  let isMethod :=
    match a.stack[n + 1]? with
    | some (.value _) => true
    | _ => false
  let callee := if isMethod then a.peek (n + 1) else a.peek n
  let arguments := a.top (if isMethod then n + 1 else n)
  let plain := arguments.length - names.length
  { x.process with
      tasks := .activation rest :: x.rest
      mode := .call callee (arguments.take plain) (names.zip (arguments.drop plain)) }

/-- The cells in a tuple of cells. -/
def cellsOf (v : Value) : List Address :=
  match v with
  | .tuple items =>
    items.filterMap fun
      | .ref a => some a
      | _ => none
  | _ => []

/-- The items of a tuple. -/
def itemsOf (v : Value) : List Value :=
  match v with
  | .tuple items => items
  | _ => []

/-- Makes a function of the code on top of the stack, with defaults and cells below it. -/
def makeFunction (flags : Nat) : Process :=
  let a := x.activation
  let bit (k : Nat) : Nat := flags / k % 2
  let index :=
    match a.stack with
    | .code index :: _ => index
    | _ => 0
  let closure := if bit 8 == 1 then cellsOf (a.peek 1) else []
  let defaults :=
    if bit 1 == 1 then itemsOf (a.peek (1 + bit 8 + bit 4 + bit 2)) else []
  let info : FunctionInfo := {
    code := index
    qualname := ((x.codes[index]?).map CodeObject.qualname).getD ""
    globals := x.process.globals a.frame
    defaults
    closure
    attributes := .empty }
  let (f, h) := x.process.heap.allocate (.function info)
  x.resultIn (1 + bit 8 + bit 4 + bit 2 + bit 1) (.ref f) h

/-- The variables of the modules that a program can import. The options of `re` are integers with
texts of their own. -/
def libraryModule? (name : String) : Option (List (String × Value)) :=
  let option (name : String) (i : Int) : String × Value :=
    (name, .derived "RegexFlag" (some ("re." ++ name)) (.int i))
  match name with
  | "re" =>
    some [option "IGNORECASE" 2, option "LOCALE" 4, option "MULTILINE" 8, option "DOTALL" 16,
      option "UNICODE" 32, option "VERBOSE" 64, option "ASCII" 256]
  | "re._constants" =>
    some [("_NamedIntConstant", .builtin (.type "re._constants" "_NamedIntConstant"))]
  | "zlib" => some [("error", .builtin (.type "zlib" "error"))]
  | "statelabel.verify" => some [("Verify", .builtin (.type "statelabel.verify" "Verify"))]
  | "statelabel" => some []
  | _ => none

/-- A module that the program imports, made when it is imported first. -/
def importModule (name : String) : Process :=
  match x.process.imported.get? name, libraryModule? name with
  | some a, _ => x.result 2 (.ref a)
  | none, some bindings =>
    let (a, h) := x.process.heap.plantModule name bindings
    let p := x.process.withHeap h
    x.goOn { p with imported := p.imported.set name a } ((x.activation.drop 2).push (.ref a))
  | none, none => x.process.fail "ModuleNotFoundError" ("No module named " ++ Quoted.text name)

/-- Pushes an attribute of the module on top of the stack. -/
def importFrom (name : String) : Process :=
  let module := x.peek 0
  match x.process.heap.ownAttribute? module name with
  | some v => x.result 0 v
  | none =>
    let home := ((x.process.heap.ownAttribute? module "__name__").bind Value.text?).getD "?"
    x.process.fail "ImportError" ("cannot import name " ++ Quoted.text name ++ " from " ++
      Quoted.text home ++ " (unknown location)")

/-! ### Returns -/

/-- Leaves the activation with a value. A suspended function has no more items then. -/
def leave : Move Process :=
  let v := x.peek 0
  let a := x.activation
  let p := { x.process with tasks := x.rest }
  let after :=
    match a.generator with
    | none => p.deliver v
    | some number => (p.finishGenerator a.frame number).going .exhausted
  .effect (.returned a.frame v) after

/-- Suspends a function before it has begun, and gives the iterator over its values. -/
def makeGenerator : Process :=
  let number := x.process.generators.size
  let a := { x.activation with generator := some number }
  let (g, p) := x.process.allocate (.generator number)
  let p := p.mapFrame a.frame fun fr => { fr with caller := none }
  { p with
      tasks := x.rest
      generators := p.generators.push (.suspended a .none)
      mode := .deliver (.ref g) }

/-- Suspends a function and gives a value. -/
def suspend : Process :=
  let v := x.peek 0
  let a := x.activation.drop 1
  let p := x.process.mapFrame a.frame fun fr => { fr with caller := none }
  { p with
      tasks := x.rest
      generators :=
        match a.generator with
        | some number => p.generators.setIfInBounds number (.suspended a (p.handled.headD .none))
        | none => p.generators
      handled := p.handled.drop 1
      mode := .deliver v }

/-! ### Exceptions -/

/-- Raises a value: an exception, or an instance of a class of exceptions. -/
def raiseValue (v : Value) : Process :=
  let h := x.process.heap
  if h.isExceptionType v then
    { x.process with tasks := .raising :: x.process.tasks, mode := .call v [] [] }
  else if h.isInstance v (.ofType "BaseException") then x.process.going (.unwind v)
  else x.process.fail "TypeError" "exceptions must derive from BaseException"

/-- Raises an exception with a number of operands: the exception and its cause. Without operands
the exception that is being handled goes on. -/
def raise (n : Nat) : Process :=
  match n with
  | 0 =>
    match x.process.topHandled with
    | .none => x.process.fail "RuntimeError" "No active exception to reraise"
    | e => x.process.going (.handle e)
  | 1 => x.raiseValue (x.peek 0)
  | _ =>
    let h := x.process.heap
    let cause := x.peek 0
    if cause.isNone || h.isExceptionType cause || h.isInstance cause (.ofType "BaseException") then
      x.raiseValue (x.peek 1)
    else x.process.fail "TypeError" "exception causes must derive from BaseException"

/-- Puts the exception that was being handled below the top, which is handled from now on. -/
def pushHandled : Process :=
  let e := x.peek 0
  let before := x.process.handled.headD .none
  x.goOn (x.process.setHandled e) (((x.activation.drop 1).push before).push e)

/-- Whether the exception below the top is an instance of the class on top, or of one of several
classes. -/
def matchException : Process :=
  let h := x.process.heap
  let types :=
    match x.peek 0 with
    | .tuple items => items
    | t => [t]
  if types.all h.isExceptionType then
    x.result 1 (.bool (types.any (h.isInstance (x.peek 1))))
  else
    x.process.fail "TypeError"
      "catching classes that do not inherit from BaseException is not allowed"

/-! ### All operations -/

/-- Jumps if the top counts as a truth value. -/
def jumpWhen (on : Bool) (target : Nat) : Process :=
  let a := x.activation.drop 1
  x.goOn x.process
    (if x.process.heap.truthy (x.peek 0) == on then a.jump x.code target else a)

/-- Jumps if the top counts as a truth value, and drops it otherwise. -/
def jumpOrPop (on : Bool) (target : Nat) : Process :=
  x.goOn x.process
    (if x.process.heap.truthy (x.peek 0) == on then x.activation.jump x.code target
      else x.activation.drop 1)

/-- Operations on the stack and on variables. -/
def executeVariable? : Operation → Option Process
  | .resume =>
    let isFirst := x.activation.current == x.code.entry
    some (x.goOn x.process { x.activation with entering := isFirst })
  | .idle => some (x.goOn x.process x.activation)
  | .popTop => some (x.done 1 x.process)
  | .copy n => some (x.pushItem (x.activation.stack[n - 1]?.getD .null))
  | .swap n => some (x.swap n)
  | .pushNull => some (x.pushItem .null)
  | .loadConstant l index =>
    let (v, h) := (l.settle [x.activation.code, index]).plant x.process.heap
    some (x.resultIn 0 v h)
  | .loadCode index => some (x.pushItem (.code index))
  | .loadName name => some (x.resultOf 0 (x.process.loadName x.activation.frame name))
  | .storeName name =>
    some (x.done 1 (x.process.storeName x.activation.frame name (x.peek 0)))
  | .deleteName name => some (x.doneOf 0 (x.process.deleteName x.activation.frame name))
  | .loadGlobal name null =>
    some <|
      match x.process.loadGlobal x.activation.frame name with
      | .error r => x.throw r
      | .ok v =>
        let below : List Item := if null then [.null] else []
        x.goOn x.process { x.activation with stack := .value v :: below ++ x.activation.stack }
  | .storeGlobal name =>
    some (x.done 1 (x.process.bindAt (x.process.globals x.activation.frame) name (x.peek 0)))
  | .deleteGlobal name =>
    some (x.doneOf 0 (x.process.unbindAt (x.process.globals x.activation.frame) name))
  | .loadFast name => some (x.resultOf 0 (x.process.loadSlot x.activation.frame name))
  | .storeFast name =>
    some (x.done 1 (x.process.setSlot x.activation.frame name (.value (x.peek 0))))
  | .deleteFast name => some (x.doneOf 0 (x.process.deleteSlot x.activation.frame name))
  | .loadShared name => some (x.resultOf 0 (x.process.loadShared x.code x.activation name))
  | .storeShared name =>
    some (x.done 1 (x.process.setShared x.activation name (some (x.peek 0))))
  | .deleteShared name => some (x.doneOf 0 (x.process.deleteShared x.code x.activation name))
  | .loadCell name =>
    some (x.result 0 ((Bindings.find? name x.activation.cells).elim .none .ref))
  | .makeCell name =>
    let (a, p) := x.process.makeCell x.activation name
    some (x.goOn p a)
  | .copyFreeVariables =>
    let (a, p) := x.process.copyCells x.code x.activation
    some (x.goOn p a)
  | _ => none

/-- Operations that work on values. -/
def executeValue? : Operation → Option Process
  | .loadAttribute name => some (x.resultInOf 1 (x.process.heap.loadAttribute (x.peek 0) name))
  | .storeAttribute name =>
    some (x.doneOf 2 ((x.process.heap.storeAttribute (x.peek 0) name (x.peek 1)).map
      x.process.withHeap))
  | .deleteAttribute name =>
    some (x.doneOf 1 ((x.process.heap.deleteAttribute (x.peek 0) name).map x.process.withHeap))
  | .loadMethod name => some (x.loadMethod name)
  | .subscript => some (x.resultOf 2 (x.process.heap.item (x.peek 1) (x.peek 0)))
  | .storeSubscript =>
    some (x.doneOf 3 ((x.process.heap.setItem (x.peek 1) (x.peek 0) (x.peek 2)).map
      x.process.withHeap))
  | .buildTuple n => some (x.result n (.tuple (x.activation.top n)))
  | .buildList n =>
    let (v, h) := Operator.newList x.process.heap (x.activation.top n).toArray
    some (x.resultIn n v h)
  | .extendList n => some (x.extendList n)
  | .appendList n => some (x.appendList n)
  | .buildMap n =>
    some (x.resultInOf (2 * n) (x.process.heap.mapOf (pairs (x.activation.top (2 * n)))))
  | .buildMapOfKeys n =>
    let values := (x.activation.drop 1).top n
    some (x.resultInOf (n + 1) (x.process.heap.mapOf ((itemsOf (x.peek 0)).zip values)))
  | .buildText n =>
    some (x.result n (.str (String.join ((x.activation.top n).filterMap Value.text?))))
  | .format flags => some (x.format flags)
  | .unpack n => some ((x.wait 1).collect (x.peek 0) (.unpack n))
  | .binary op inPlace => some (x.operate op inPlace)
  | .not => some (x.result 1 (.bool (!x.process.heap.truthy (x.peek 0))))
  | .negate => some (x.resultInOf 1 (x.process.heap.negated (x.peek 0)))
  | .compare c =>
    some (x.resultOf 2 ((c.apply x.process.heap (x.peek 1) (x.peek 0)).map .bool))
  | .same inverted =>
    some (x.result 2 (.bool (x.process.heap.identical (x.peek 1) (x.peek 0) != inverted)))
  | .contains inverted => some (x.membership inverted)
  | _ => none

/-- Executes an operation. -/
def execute (op : Operation) : Move Process :=
  match x.executeVariable? op, x.executeValue? op with
  | some p, _ | none, some p => .internal p
  | none, none =>
    match op with
    | .jump target => .internal (x.goOn x.process (x.activation.jump x.code target))
    | .jumpWhen on target => .internal (x.jumpWhen on target)
    | .jumpOrPop on target => .internal (x.jumpOrPop on target)
    | .iterate =>
      .internal <|
        match x.process.iterator (x.peek 0) with
        | .ok (v, p) => x.goOn p ((x.activation.drop 1).push v)
        | .error r => x.throw r
    | .next target => .internal ((x.process.push (.loop target)).going (.ask (x.peek 0)))
    | .keywords names => .internal (x.goOn x.process { x.activation with keywords := names })
    | .call n => .internal (x.call n)
    | .makeFunction flags => .internal (x.makeFunction flags)
    | .loadClassBuilder => .internal (x.result 0 (.builtin (.function "__build_class__")))
    | .return => x.leave
    | .makeGenerator => .internal x.makeGenerator
    | .yield => .internal x.suspend
    | .importModule name => .internal (x.importModule name)
    | .importFrom name => .internal (x.importFrom name)
    | .raise n => .internal (x.raise n)
    | .reraise => .internal (x.process.going (.handle (x.peek 0)))
    | .pushHandled => .internal x.pushHandled
    | .popHandled => .internal (x.done 1 (x.process.setHandled (x.peek 0)))
    | .matchException => .internal x.matchException
    | .loadAssertion => .internal (x.result 0 (.ofType "AssertionError"))
    | _ => .internal (x.process.fail "SystemError" "unknown opcode")

end CodeContext

end StateAtlas
