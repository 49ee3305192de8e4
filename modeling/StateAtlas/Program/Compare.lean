import StateAtlas.Number.Real
import StateAtlas.Program.Type

set_option autoImplicit false

/-!
# Comparing values

Numbers are compared by their exact values across their types, containers by their items, all
other objects by identity. What is not a number is not equal to itself, but a container that holds
it finds it again as the object it is.

## Main definitions

* `StateAtlas.Heap.equal` — equality of values.
* `StateAtlas.Heap.matching` — equality as containers see it.
* `StateAtlas.Heap.order` — the order of two values, if their types have one.
* `StateAtlas.Heap.truthy` — whether a value counts as true.
* `StateAtlas.Heap.unhashable?` — the type that keeps a value from being a key.
-/

namespace StateAtlas

/-- The number a value is; a truth value is zero or one. -/
def Value.number? (v : Value) : Option Real :=
  match v.content with
  | .bool b => some (.int (if b then 1 else 0))
  | .int i => some (.int i)
  | .float x => some (.float x)
  | _ => Option.none

/-- The integer a value can stand for: an integer or a truth value. -/
def Value.index? (v : Value) : Option Int :=
  match v.number? with
  | some (.int i) => some i
  | _ => Option.none

/-- How deep comparisons may nest. -/
def maxCompareDepth : Nat := 1000

/-- Whether two lists agree item by item. -/
def agreeBy {α : Type} (eq : α → α → Bool) : List α → List α → Bool
  | [], [] => true
  | a :: as, b :: bs => eq a b && agreeBy eq as bs
  | _, _ => false

namespace Heap

/-- Equality of values; `room` bounds how deep the comparison nests. -/
def equalWithin (h : Heap) : Nat → Value → Value → Bool
  | 0, _, _ => false
  | room + 1, a, b =>
    let eq (a b : Value) : Bool := a.isSameNan b || equalWithin h room a b
    match a.number?, b.number? with
    | some x, some y => x.equal y
    | some x, none =>
      match b.content with
      | .complex re im => im == 0.0 && x.equal (.float re)
      | _ => false
    | none, some y =>
      match a.content with
      | .complex re im => im == 0.0 && y.equal (.float re)
      | _ => false
    | none, none =>
      match a.content, b.content with
      | .none, .none => true
      | .complex re im, .complex re' im' => re == re' && im == im'
      | .str s, .str t => s == t
      | .bytes s, .bytes t => s == t
      | .tuple as, .tuple bs => agreeBy eq as bs
      | .builtin x, .builtin y => x == y
      | .ref x, .ref y =>
        x == y ||
          match h.get? x, h.get? y with
          | some (.list as), some (.list bs) => agreeBy eq as.toList bs.toList
          | some (.set _ as), some (.set _ bs) =>
            as.size == bs.size && as.all fun a => bs.any (eq a)
          | some (.dict as), some (.dict bs) =>
            as.size == bs.size && as.all fun (k, v) => bs.any fun (k', v') => eq k k' && eq v v'
          | some (.range a b c), some (.range a' b' c') => a == a' && b == b' && c == c'
          | some (.bound r f), some (.bound r' f') => r.isSame r' && f.isSame f'
          | _, _ => false
      | _, _ => false

/-- Equality of values. -/
def equal (h : Heap) (a b : Value) : Bool := h.equalWithin maxCompareDepth a b

/-- Equality as containers see it: one and the same object, or equal ones. -/
def matching (h : Heap) (a b : Value) : Bool := a.isSameNan b || h.equal a b

/-- The outcome of comparing two values by order. -/
inductive Order where
  | known (o : Ordering)
  /-- One of the values is no number. -/
  | unknown
  /-- The types of two values have no common order. -/
  | mismatch (a b : Value)

/-- The order of two lists by their first different items, with the order of items given. -/
def lexicographic (h : Heap) (item : Value → Value → Order) : List Value → List Value → Order
  | [], [] => .known .eq
  | [], _ :: _ => .known .lt
  | _ :: _, [] => .known .gt
  | a :: as, b :: bs => if h.matching a b then lexicographic h item as bs else item a b

/-- The order of two values; `room` bounds how deep the comparison nests. -/
def orderWithin (h : Heap) : Nat → Value → Value → Order
  | 0, a, b => .mismatch a b
  | room + 1, a, b =>
    match a.number?, b.number? with
    | some x, some y =>
      match x.compare? y with
      | some o => .known o
      | none => .unknown
    | _, _ =>
      match a.content, b.content with
      | .str s, .str t => .known (compare s t)
      | .bytes s, .bytes t =>
        .known (if s == t then .eq else if s.map UInt8.toNat < t.map UInt8.toNat then .lt else .gt)
      | .tuple as, .tuple bs => lexicographic h (orderWithin h room) as bs
      | .ref x, .ref y =>
        match h.get? x, h.get? y with
        | some (.list as), some (.list bs) =>
          lexicographic h (orderWithin h room) as.toList bs.toList
        | _, _ => .mismatch a b
      | _, _ => .mismatch a b

/-- The order of two values. -/
def order (h : Heap) (a b : Value) : Order := h.orderWithin maxCompareDepth a b

/-- Whether a value counts as true: it is not nothing, not zero and not empty. -/
def truthy (h : Heap) (v : Value) : Bool :=
  match v.content with
  | .none => false
  | .bool b => b
  | .int i => i != 0
  | .float x => x != 0.0
  | .complex re im => re != 0.0 || im != 0.0
  | .str s => !s.isEmpty
  | .bytes bs => !bs.isEmpty
  | .tuple items => !items.isEmpty
  | .nan .. | .derived .. | .builtin _ => true
  | .ref a =>
    match h.get? a with
    | some (.list items) | some (.set _ items) => !items.isEmpty
    | some (.dict entries) => !entries.isEmpty
    | some (.range start stop step) => if step < 0 then stop < start else start < stop
    | _ => true

/-- The name of the type that keeps a value from being a key; `room` bounds the depth. -/
def unhashableWithin (h : Heap) : Nat → Value → Option String
  | 0, _ => none
  | room + 1, v =>
    match v.content with
    | .tuple items => items.findSome? (unhashableWithin h room)
    | .ref a =>
      match h.get? a with
      | some (.list _) => some "list"
      | some (.dict _) => some "dict"
      | some (.set false _) => some "set"
      | _ => none
    | _ => none

/-- The name of the type that keeps a value from being a key. -/
def unhashable? (h : Heap) (v : Value) : Option String := h.unhashableWithin maxCompareDepth v

/-- The entry of a mapping under a key. -/
def findEntry? (h : Heap) (entries : Array (Value × Value)) (key : Value) : Option Nat :=
  entries.findIdx? fun e => h.matching e.1 key

/-- Sets an entry of a mapping, in place if the key is there. -/
def setEntry (h : Heap) (entries : Array (Value × Value)) (key v : Value) :
    Array (Value × Value) :=
  match h.findEntry? entries key with
  | some i => entries.modify i fun e => (e.1, v)
  | none => entries.push (key, v)

/-- Adds a member to a set unless an equal one is there. -/
def addMember (h : Heap) (items : Array Value) (v : Value) : Array Value :=
  if items.any (h.matching v) then items else items.push v

end Heap

end StateAtlas
