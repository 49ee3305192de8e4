import StateAtlas.Code.Process

set_option autoImplicit false

/-!
# Iterators in running code

An iterator gives its items one by one. Built-in iterators answer at once; a suspended function is
resumed, and an iterator that applies a function first asks the iterators of its arguments.

## Main definitions

* `StateAtlas.Process.iterator` — an iterator over a value.
* `StateAtlas.Process.ask` — asks an iterator for its next item.
* `StateAtlas.Process.collect` — collects all items of a value.
-/

namespace StateAtlas

/-- The number of equally spaced integers before a stop. -/
def rangeLength (start stop step : Int) : Nat :=
  if 0 < step then ((stop - start + step - 1) / step).toNat
  else if step < 0 then ((start - stop - step - 1) / (-step)).toNat
  else 0

namespace Process

/-- Whether a value is an iterator. -/
def isIterator (p : Process) (v : Value) : Bool :=
  match p.heap.object? v with
  | some (.iterator ..) | some (.generator _) => true
  | _ => false

/-- The exception for a value without items. -/
def notIterable (p : Process) (v : Value) : Raised :=
  .ofText "TypeError" (Quoted.text (p.heap.typeNameFor v) ++ " object is not iterable")

/-- The name of the type and the items of a new iterator over a value, if it has items. -/
def supply? (p : Process) (v : Value) : Option (String × Supply) :=
  match v.content with
  | .tuple items => some ("tuple_iterator", .values items)
  | .str s =>
    some (if s.toList.all (fun c => c.toNat < 128) then "str_ascii_iterator" else "str_iterator",
      .values (s.toList.map fun c => .str (String.singleton c)))
  | .bytes bs => some ("bytes_iterator", .values (bs.map fun (b : UInt8) => .int b.toNat))
  | _ =>
    match p.heap.object? v, v.content with
    | some (.list _), .ref a => some ("list_iterator", .list a 0)
    | some (.set _ items), _ => some ("set_iterator", .values items.toList)
    | some (.dict entries), _ => some ("dict_keyiterator", .values (entries.toList.map Prod.fst))
    | some (.range start stop step), _ =>
      some ("range_iterator", .integers start step (rangeLength start stop step))
    | _, _ => none

/-- An iterator over a value. -/
def iterator (p : Process) (v : Value) : Except Raised (Value × Process) :=
  if p.isIterator v then .ok (v, p)
  else
    match p.supply? v with
    | some (type, supply) =>
      let (a, p) := p.allocate (.iterator type supply)
      .ok (.ref a, p)
    | none => .error (p.notIterable v)

/-- Iterators over several values. -/
def iterators (p : Process) : List Value → Except Raised (List Value × Process)
  | [] => .ok ([], p)
  | v :: vs =>
    match p.iterator v with
    | .error r => .error r
    | .ok (i, p) =>
      match p.iterators vs with
      | .error r => .error r
      | .ok (is, p) => .ok (i :: is, p)

/-- Continues a suspended function; nothing is sent into it. -/
def resumeGenerator (p : Process) (number : Nat) : Process :=
  match p.generators[number]? with
  | some (.suspended a handled) =>
    let p := p.mapFrame a.frame fun f => { f with caller := p.currentFrame }
    { p with
        tasks := .activation (a.push .none) :: p.tasks
        generators := p.generators.setIfInBounds number .running
        handled := handled :: p.handled
        mode := .run }
  | some .running => p.fail "ValueError" "generator already executing"
  | _ => p.going .exhausted

/-- Asks an iterator for its next item. -/
def ask (p : Process) (iterator : Value) : Process :=
  match p.heap.object? iterator, iterator.content with
  | some (.generator number), _ => p.resumeGenerator number
  | some (.iterator type supply), .ref a =>
    let replace (s : Supply) : Process := p.withHeap (p.heap.set a (.iterator type s))
    match supply with
    | .values [] => p.going .exhausted
    | .values (v :: rest) => (replace (.values rest)).deliver v
    | .integers _ _ 0 => p.going .exhausted
    | .integers next step (left + 1) => (replace (.integers (next + step) step left)).deliver (.int next)
    | .list l index =>
      match p.heap.get? l with
      | some (.list items) =>
        match items[index]? with
        | some v => (replace (.list l (index + 1))).deliver v
        | none => (replace (.values [])).going .exhausted
      | _ => p.going .exhausted
    | .mapped function sources =>
      match sources with
      | [] => p.going .exhausted
      | first :: pending => (p.push (.map function pending [])).going (.ask first)
  | _, _ =>
    p.fail "TypeError" (Quoted.text (p.heap.typeNameFor iterator) ++ " object is not an iterator")

/-- Collects all items of a value. -/
def collect (p : Process) (v : Value) (into : Collection) : Process :=
  match p.iterator v with
  | .ok (i, p) => (p.push (.collect i #[] into)).going (.ask i)
  | .error r =>
    match into with
    | .unpack _ =>
      p.fail "TypeError" ("cannot unpack non-iterable " ++ p.heap.typeNameFor v ++ " object")
    | _ => p.throw r

end Process

end StateAtlas
