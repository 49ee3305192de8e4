import StateAtlas.Code.Call

set_option autoImplicit false

/-!
# Deliveries

What runs on top of a task ends with a value, with an exception, or because an iterator has no
more items. The task below goes on from there.

## Main definitions

* `StateAtlas.Process.receive` — a task receives a value.
* `StateAtlas.Process.receiveEnd` — a task learns that there are no more items.
* `StateAtlas.Process.pass` — an exception arrives at a task that is no activation.
* `StateAtlas.Process.handle` — an activation handles an exception or is left by it.
* `StateAtlas.Process.endingOf` — the ending of a program that an exception leaves.
* `StateAtlas.Process.leaveBy` — an exception leaves the program.
-/

namespace StateAtlas

namespace Process

/-! ### Collections -/

/-- An item of a collection arrives. -/
def addItem (p : Process) (iterator : Value) (items : Array Value) (into : Collection) (v : Value)
    (rest : List Task) : Process :=
  let items := items.push v
  let more : Process :=
    { p with tasks := .collect iterator items into :: rest, mode := .ask iterator }
  let p := { p with tasks := rest }
  match into with
  | .unpack count =>
    if count < items.size then
      p.fail "ValueError" ("too many values to unpack (expected " ++ toString count ++ ")")
    else more
  | .contains x inverted => if p.heap.matching x v then p.deliver (.bool (!inverted)) else more
  | .set =>
    match p.heap.unhashable? v with
    | some type => p.fail "TypeError" ("unhashable type: " ++ Quoted.text type)
    | none => more
  | _ => more

/-- Pushes values on the topmost activation, the first one last. -/
def pushAll (p : Process) (vs : List Value) : Process :=
  match p.tasks with
  | .activation a :: rest => p.resume (vs.reverse.foldl Activation.push a) rest
  | _ => p.going .run

/-- All items of a collection have arrived. -/
def finishCollection (p : Process) (items : Array Value) (into : Collection) : Move Process :=
  match into with
  | .extend list result =>
    let p :=
      match p.heap.get? list with
      | some (.list old) => p.withHeap (p.heap.set list (.list (old ++ items)))
      | _ => p
    .internal (if result then p.deliver (.ref list) else p.going .run)
  | .unpack count =>
    .internal <|
      if items.size < count then
        p.fail "ValueError" ("not enough values to unpack (expected " ++ toString count ++
          ", got " ++ toString items.size ++ ")")
      else p.pushAll items.toList
  | .set =>
    let (a, p) := p.allocate (.set false (items.foldl p.heap.addMember #[]))
    .internal (p.deliver (.ref a))
  | .list =>
    let (a, p) := p.allocate (.list items)
    .internal (p.deliver (.ref a))
  | .tuple => .internal (p.deliver (.tuple items.toList))
  | .contains _ inverted => .internal (p.deliver (.bool inverted))
  | .choose => p.request (.among items.toList)

/-! ### Values -/

/-- The ending of a program whose report has received a value from a method of the exception. -/
def reportEnding (p : Process) (type method : String) (v : Value) : Ending :=
  match v.text? with
  | some text => .raised type text
  | none =>
    let given := p.heap.typeNameFor v
    .interrupted ⟨"TypeError", false⟩ <|
      if method == "__str__" then "__str__ returned non-string (type " ++ given ++ ")"
      else method ++ " must return a str, not " ++ given

/-- A task receives a value. -/
def receive (p : Process) (v : Value) : Process :=
  match p.tasks with
  | [] => p.going (.ended .normal)
  | .activation a :: rest => p.resume (a.push v) rest
  | .construct object :: rest =>
    let p := { p with tasks := rest }
    if v.isNone then p.deliver object
    else
      p.fail "TypeError" ("__init__() should return None, not " ++
        Quoted.text (p.heap.typeNameFor v))
  | .define name parents body :: rest =>
    { p with tasks := rest }.defineClass name parents body v
  | .raising :: rest =>
    let p := { p with tasks := rest }
    if p.heap.isInstance v (.ofType "BaseException") then p.going (.unwind v)
    else
      p.fail "TypeError" ("calling the class should have returned an instance of " ++
        "BaseException, not " ++ p.heap.typeNameFor v)
  | .report type method :: rest =>
    { p with tasks := rest, mode := .ended (p.reportEnding type method v) }
  | .loop _ :: rest => { p with tasks := rest }.deliver v
  | .fetch _ :: rest => { p with tasks := rest }.deliver v
  | .collect iterator items into :: rest => p.addItem iterator items into v rest
  | .map function pending items :: rest =>
    let items := items ++ [v]
    match pending with
    | next :: pending =>
      { p with tasks := .map function pending items :: rest, mode := .ask next }
    | [] => { p with tasks := rest, mode := .call function items [] }

/-- Leaves a loop whose iterator has no more items. -/
def leaveLoop (p : Process) (codes : Array CodeObject) (target : Nat) : Process :=
  match p.tasks with
  | .activation a :: rest =>
    match codes[a.code]? with
    | some c => p.resume ((a.drop 1).jump c target) rest
    | none => p.going .run
  | _ => p.going .run

/-- A task learns that there are no more items. -/
def receiveEnd (p : Process) (codes : Array CodeObject) : Move Process :=
  match p.tasks with
  | .loop target :: rest => .internal ({ p with tasks := rest }.leaveLoop codes target)
  | .fetch fallback :: rest =>
    let p := { p with tasks := rest }
    .internal <|
      match fallback with
      | some v => p.deliver v
      | none => p.throw ⟨.ofType "StopIteration", []⟩
  | .collect _ items into :: rest => { p with tasks := rest }.finishCollection items into
  | .map .. :: rest => .internal { p with tasks := rest }
  | _ => .internal (p.going (.deliver .none))

/-! ### Exceptions -/

/-- Whether an exception says that there are no more items. -/
def isEndOfItems (p : Process) (e : Value) : Bool := p.heap.isInstance e (.ofType "StopIteration")

/-- An exception arrives at a task that is no activation: the end of an iterator is what a task
that asks for items waits for, any other exception leaves it. -/
def pass (p : Process) (e : Value) : Process :=
  match p.tasks with
  | .loop _ :: _ | .fetch _ :: _ | .collect .. :: _ | .map .. :: _ =>
    if p.isEndOfItems e then p.going .exhausted
    else { p with tasks := p.tasks.drop 1, mode := .unwind e }
  | _ => { p with tasks := p.tasks.drop 1, mode := .unwind e }

/-- An exception as it leaves the run. -/
def departure (p : Process) (e : Value) : Ending :=
  .interrupted ⟨p.heap.typeNameFor e, p.heap.isInstance e (.ofType "SyntaxError")⟩
    (p.heap.faultText e)

/-- Whether an exception that leaves the program is reported. -/
def isReported (p : Process) (e : Value) : Bool :=
  p.heap.isInstance e (.ofType "Exception") && !p.heap.isInstance e (.ofType "SystemExit") &&
    !p.heap.isInstance e .stopType

/-- The ending of a program that an exception leaves. The report of an exception holds its text;
without one, the report itself fails, and that failure leaves the run. -/
def endingOf (p : Process) (e : Value) : Ending :=
  if p.heap.isInstance e .stopType then .stopped
  else if p.heap.isInstance e (.ofType "SystemExit") then .exit
  else if p.isReported e then
    match p.heap.shown? e with
    | some text => .raised (p.heap.typeNameFor e) text
    | none => .interrupted ⟨"ValueError", false⟩ Fault.integerTooLong.message
  else p.departure e

/-- The methods by which a class of the program may write its instances in a report, each with the
arguments that it gets besides. -/
def reportMethods : List (String × List Value) := [("__format__", [.str ""]), ("__str__", [])]

/-- The method by which the class of an exception writes its instances, if the program has given it
one. -/
def reportMethod? (p : Process) (e : Value) : Option (String × Value × List Value) :=
  reportMethods.findSome? fun (name, rest) =>
    (p.heap.typeAttribute? (p.heap.typeOf e) name).map fun f => (name, f, rest)

/-- An exception leaves the program. If its class writes its instances by a method of the program,
then this method is called for the report. -/
def leaveBy (p : Process) (e : Value) : Process :=
  match p.isReported e, p.reportMethod? e with
  | true, some (name, f, rest) =>
    (p.push (.report (p.heap.typeNameFor e) name)).going
      (.call f (if p.heap.isFunction f then e :: rest else rest) [])
  | _, _ => p.going (.ended (p.endingOf e))

/-- Ends a suspended function. -/
def finishGenerator (p : Process) (frame : FrameId) (number : Nat) : Process :=
  let p := p.mapFrame frame fun fr => { fr with caller := none }
  { p with
      generators := p.generators.setIfInBounds number .finished
      handled := p.handled.drop 1 }

/-- An activation handles an exception or is left by it. The end of items cannot leave a
suspended function as an exception. -/
def handle (p : Process) (codes : Array CodeObject) (e : Value) : Process :=
  match p.tasks with
  | .activation a :: rest =>
    match codes[a.code]? with
    | none => { p with tasks := rest, mode := .unwind e }
    | some c =>
      let offset := a.offset c
      match c.handler? offset with
      | some h =>
        let a := { a with stack := a.stack.drop (a.stack.length - h.depth) }
        let a := if h.pushesOffset then a.push (.int offset) else a
        p.resume ((a.push e).jump c h.target) rest
      | none =>
        let p := { p with tasks := rest }
        match a.generator with
        | none => p.going (.unwind e)
        | some number =>
          let p := p.finishGenerator a.frame number
          if p.isEndOfItems e then p.fail "RuntimeError" "generator raised StopIteration"
          else p.going (.unwind e)
  | _ => p.going (.unwind e)

end Process

end StateAtlas
