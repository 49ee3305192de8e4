import StateAtlas.Program.Compare
import StateAtlas.Text.Quoted

set_option autoImplicit false

/-!
# Operators

The operators of explored programs on numbers, texts, sequences and sets. An operation that has no
result raises an exception of the program.

## Main definitions

* `StateAtlas.Raised` — an exception about to arise: its class and its arguments.
* `StateAtlas.Operator` — the operators with two operands.
* `StateAtlas.Operator.apply` — the result of an operator.
* `StateAtlas.Comparison.apply` — the result of a comparison.
-/

namespace StateAtlas

/-- An exception about to arise: its class and its arguments. -/
structure Raised where
  type : Value
  arguments : List Value
  deriving Inhabited

/-- An exception of a built-in class with a text. -/
def Raised.ofText (type text : String) : Raised := ⟨.ofType type, [.str text]⟩

/-- The operators with two operands. -/
inductive Operator where
  | add
  | sub
  | mul
  | div
  | floorDiv
  | mod
  | pow
  | and
  | or
  | xor
  | shiftLeft
  | shiftRight
  deriving DecidableEq, Repr, Inhabited

namespace Operator

/-- The operators with their symbols. -/
def symbols : List (String × Operator) :=
  [("+", .add), ("-", .sub), ("*", .mul), ("/", .div), ("//", .floorDiv), ("%", .mod),
   ("**", .pow), ("&", .and), ("|", .or), ("^", .xor), ("<<", .shiftLeft), (">>", .shiftRight)]

/-- The symbol of an operator. -/
def symbol (op : Operator) : String :=
  ((symbols.find? fun e => e.2 == op).map Prod.fst).getD ""

/-- The exception for operands that an operator does not take. -/
def mismatch (op : Operator) (inPlace : Bool) (h : Heap) (a b : Value) : Raised :=
  let name :=
    if inPlace then op.symbol ++ "=" else if op == .pow then "** or pow()" else op.symbol
  .ofText "TypeError" ("unsupported operand type(s) for " ++ name ++ ": " ++
    Quoted.text (h.typeNameFor a) ++ " and " ++ Quoted.text (h.typeNameFor b))

/-- The exception of a division by zero. -/
def zeroDivision (text : String) : Raised := .ofText "ZeroDivisionError" text

/-- An operator on integers. -/
def onIntegers (op : Operator) (i j : Int) : Except Raised Value :=
  match op with
  | .add => .ok (.int (i + j))
  | .sub => .ok (.int (i - j))
  | .mul => .ok (.int (i * j))
  | .div =>
    if j == 0 then .error (zeroDivision "division by zero")
    else
      match intQuotient? i j with
      | some x => .ok (.float x)
      | none => .error (.ofText "OverflowError" "integer division result too large for a float")
  | .floorDiv =>
    if j == 0 then .error (zeroDivision "integer division or modulo by zero")
    else .ok (.int (Int.fdiv i j))
  | .mod =>
    if j == 0 then .error (zeroDivision "integer modulo by zero")
    else .ok (.int (Int.fmod i j))
  | .pow =>
    if 0 ≤ j then .ok (.int (i.pow j.toNat))
    else if i == 0 then .error (zeroDivision "0.0 cannot be raised to a negative power")
    else
      match floatOfInt? i, floatOfInt? j with
      | some x, some y => .ok (.float (x.pow y))
      | _, _ => .error (.ofText "OverflowError" "int too large to convert to float")
  | .and => .ok (.int (bitwise (· && ·) i j))
  | .or => .ok (.int (bitwise (· || ·) i j))
  | .xor => .ok (.int (bitwise (· != ·) i j))
  | .shiftLeft =>
    if j < 0 then .error (.ofText "ValueError" "negative shift count")
    else .ok (.int (i * Int.pow 2 j.toNat))
  | .shiftRight =>
    if j < 0 then .error (.ofText "ValueError" "negative shift count")
    else .ok (.int (Int.fdiv i (Int.pow 2 j.toNat)))
where
  /-- A bitwise operation on integers in two's complement. -/
  bitwise (f : Bool → Bool → Bool) (i j : Int) : Int :=
    let bit (k : Int) : Bool := k < 0
    let width := max i.natAbs.log2 j.natAbs.log2 + 2
    let low (k : Int) : Nat := (k % Int.pow 2 width).toNat
    let n := Nat.bitwise f (low i) (low j) % Nat.pow 2 width
    if f (bit i) (bit j) then (n : Int) - Int.pow 2 width else n

/-- An operator on floating-point numbers; `none` if it does not take them. -/
def onFloats? (op : Operator) (x y : Float) : Option (Except Raised Value) :=
  match op with
  | .add => some (.ok (.float (x + y)))
  | .sub => some (.ok (.float (x - y)))
  | .mul => some (.ok (.float (x * y)))
  | .div =>
    some (if y == 0.0 then .error (zeroDivision "float division by zero") else .ok (.float (x / y)))
  | .floorDiv =>
    some (if y == 0.0 then .error (zeroDivision "float floor division by zero")
      else .ok (.float (floatFloorQuotient x y)))
  | .mod =>
    some (if y == 0.0 then .error (zeroDivision "float modulo")
      else .ok (.float (floatRemainder x y)))
  | .pow =>
    some (if x == 0.0 && y < 0.0 then
        .error (zeroDivision "0.0 cannot be raised to a negative power")
      else .ok (.float (x.pow y)))
  | _ => none

/-- An operator on truth values, where it keeps them. -/
def onBooleans? (op : Operator) (a b : Bool) : Option Bool :=
  match op with
  | .and => some (a && b)
  | .or => some (a || b)
  | .xor => some (a != b)
  | _ => none

/-- A sequence repeated. -/
def repeated {α : Type} (items : List α) (n : Int) : List α :=
  (List.replicate n.toNat items).flatten

/-- The members of a combination of two sets. -/
def onSets? (op : Operator) (h : Heap) (as bs : Array Value) : Option (Array Value) :=
  let within (items : Array Value) (v : Value) : Bool := items.any (h.matching v)
  match op with
  | .sub => some (as.filter fun v => !within bs v)
  | .and => some (as.filter fun v => within bs v)
  | .or => some (as ++ bs.filter fun v => !within as v)
  | .xor => some ((as.filter fun v => !within bs v) ++ bs.filter fun v => !within as v)
  | _ => none

/-- A new list. -/
def newList (h : Heap) (items : Array Value) : Value × Heap :=
  let (a, h) := h.allocate (.list items)
  (.ref a, h)

/-- The exception for a sequence that is joined with something else. -/
def notJoined (h : Heap) (kind : String) (b : Value) : Raised :=
  .ofText "TypeError" ("can only concatenate " ++ kind ++ " (not \"" ++ h.typeNameFor b ++
    "\") to " ++ kind)

/-- The exception for a sequence that is repeated by something else than an integer. -/
def notRepeated (h : Heap) (b : Value) : Raised :=
  .ofText "TypeError" ("can't multiply sequence by non-int of type " ++
    Quoted.text (h.typeNameFor b))

/-- A sequence joined with another value. -/
def joined (op : Operator) (inPlace : Bool) (h : Heap) (a b : Value) :
    Except Raised (Value × Heap) :=
  match a.content, b.content with
  | .str s, .str t => .ok (.str (s ++ t), h)
  | .str _, _ => .error (notJoined h "str" b)
  | .bytes s, .bytes t => .ok (.bytes (s ++ t), h)
  | .tuple as, .tuple bs => .ok (.tuple (as ++ bs), h)
  | .tuple _, _ => .error (notJoined h "tuple" b)
  | _, _ =>
    match h.object? a, h.object? b with
    | some (.list as), some (.list bs) => .ok (newList h (as ++ bs))
    | some (.list _), _ => .error (notJoined h "list" b)
    | _, _ => .error (op.mismatch inPlace h a b)

/-- The result of repeating a value, if it is a sequence. -/
def repeatedSequence? (h : Heap) (a : Value) (n : Int) : Option (Value × Heap) :=
  match a.content with
  | .str s => some (.str (String.ofList (repeated s.toList n)), h)
  | .bytes bs => some (.bytes (repeated bs n), h)
  | .tuple items => some (.tuple (repeated items n), h)
  | _ =>
    match h.object? a with
    | some (.list items) => some (newList h (repeated items.toList n).toArray)
    | _ => none

/-- A product that is not one of numbers. -/
def multiplied (op : Operator) (inPlace : Bool) (h : Heap) (a b : Value) :
    Except Raised (Value × Heap) :=
  let isSequence (v : Value) : Bool := (repeatedSequence? h v 0).isSome
  match isSequence a, b.index?, isSequence b, a.index? with
  | true, some n, _, _ => .ok ((repeatedSequence? h a n).getD (.none, h))
  | _, _, true, some n => .ok ((repeatedSequence? h b n).getD (.none, h))
  | true, none, _, _ => .error (notRepeated h b)
  | _, _, true, none => .error (notRepeated h a)
  | _, _, _, _ => .error (op.mismatch inPlace h a b)

/-- The result of an operator on values that are not two numbers. -/
def applyOther (op : Operator) (inPlace : Bool) (h : Heap) (a b : Value) :
    Except Raised (Value × Heap) :=
  match op with
  | .add => op.joined inPlace h a b
  | .mul => op.multiplied inPlace h a b
  | op =>
    match h.object? a, h.object? b with
    | some (.set frozen as), some (.set _ bs) =>
      match op.onSets? h as bs with
      | some items =>
        let (x, h) := h.allocate (.set frozen items)
        .ok (.ref x, h)
      | none => .error (op.mismatch inPlace h a b)
    | _, _ => .error (op.mismatch inPlace h a b)

/-- The result of an operator. -/
def apply (op : Operator) (inPlace : Bool) (h : Heap) (a b : Value) :
    Except Raised (Value × Heap) :=
  match a.boolean?, b.boolean? with
  | some x, some y =>
    match op.onBooleans? x y with
    | some z => .ok (.bool z, h)
    | none => numeric a b
  | _, _ => numeric a b
where
  /-- The result on two numbers, if the operands are. -/
  numeric (a b : Value) : Except Raised (Value × Heap) :=
    match a.number?, b.number? with
    | some (.int i), some (.int j) => (op.onIntegers i j).map h.settle
    | some x, some y =>
      match x.toFloat?, y.toFloat? with
      | some x, some y =>
        match op.onFloats? x y with
        | some r => r.map h.settle
        | none => .error (op.mismatch inPlace h a b)
      | _, _ => .error (.ofText "OverflowError" "int too large to convert to float")
    | _, _ => op.applyOther inPlace h a b

end Operator

/-- The comparisons. -/
inductive Comparison where
  | equal
  | notEqual
  | less
  | lessEqual
  | greater
  | greaterEqual
  deriving DecidableEq, Repr, Inhabited

namespace Comparison

/-- The comparisons with their symbols. -/
def symbols : List (String × Comparison) :=
  [("==", .equal), ("!=", .notEqual), ("<", .less), ("<=", .lessEqual), (">", .greater),
   (">=", .greaterEqual)]

/-- The symbol of a comparison. -/
def symbol (c : Comparison) : String :=
  ((symbols.find? fun e => e.2 == c).map Prod.fst).getD ""

/-- Whether a comparison holds for an order. -/
def holds (c : Comparison) (o : Ordering) : Bool :=
  match c with
  | .equal => o == .eq
  | .notEqual => o != .eq
  | .less => o == .lt
  | .lessEqual => o != .gt
  | .greater => o == .gt
  | .greaterEqual => o != .lt

/-- The result of a comparison. -/
def apply (c : Comparison) (h : Heap) (a b : Value) : Except Raised Bool :=
  match c with
  | .equal => .ok (h.equal a b)
  | .notEqual => .ok (!h.equal a b)
  | c =>
    match h.order a b with
    | .known o => .ok (c.holds o)
    | .unknown => .ok false
    | .mismatch a b =>
      .error (.ofText "TypeError" (Quoted.text c.symbol ++
        " not supported between instances of " ++ Quoted.text (h.typeNameFor a) ++ " and " ++
        Quoted.text (h.typeNameFor b)))

end Comparison

namespace Heap

/-- The negative of a value. -/
def negated (h : Heap) (v : Value) : Except Raised (Value × Heap) :=
  match v.number? with
  | some (.int i) => .ok (.int (-i), h)
  | some (.float x) => .ok (h.settle (.float (-x)))
  | none =>
    .error (.ofText "TypeError" ("bad operand type for unary -: " ++ Quoted.text (h.typeNameFor v)))

end Heap

end StateAtlas
