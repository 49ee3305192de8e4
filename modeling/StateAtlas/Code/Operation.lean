import StateAtlas.Program.Arithmetic
import StateAtlas.Program.Literal

set_option autoImplicit false

/-!
# Operations of a stack machine

A code object is a list of instructions. An instruction has an operation name and an operand as
they are written, and the operation they stand for.

## Main definitions

* `StateAtlas.Operand` — an operand as it is written.
* `StateAtlas.Operation` — what an instruction does.
* `StateAtlas.Operation.read` — the operation that a name and an operand stand for.
-/

namespace StateAtlas

/-- An operand as it is written. -/
inductive Operand where
  | absent
  | number (i : Int)
  | text (s : String)
  | texts (ss : List String)
  | constant (l : Literal)
  /-- Another code object, by its index. -/
  | code (index : Nat)
  deriving Inhabited

/-- What an instruction does. Jumps name the offset they lead to. -/
inductive Operation where
  /-- The start of a function, or the point after which a suspended one goes on. -/
  | resume
  | idle
  | popTop
  /-- Pushes the n-th item from the top, which is the first. -/
  | copy (n : Nat)
  /-- Exchanges the top and the n-th item. -/
  | swap (n : Nat)
  | pushNull
  /-- Pushes the constant of a number. -/
  | loadConstant (l : Literal) (index : Nat := 0)
  | loadCode (index : Nat)
  | loadName (name : String)
  | storeName (name : String)
  | deleteName (name : String)
  | loadGlobal (name : String) (null : Bool)
  | storeGlobal (name : String)
  | deleteGlobal (name : String)
  | loadFast (name : String)
  | storeFast (name : String)
  | deleteFast (name : String)
  /-- Variables that functions share. -/
  | loadShared (name : String)
  | storeShared (name : String)
  | deleteShared (name : String)
  | loadCell (name : String)
  | makeCell (name : String)
  | copyFreeVariables
  | loadAttribute (name : String)
  | storeAttribute (name : String)
  | deleteAttribute (name : String)
  | loadMethod (name : String)
  | subscript
  | storeSubscript
  | buildTuple (n : Nat)
  | buildList (n : Nat)
  | extendList (n : Nat)
  | appendList (n : Nat)
  | buildMap (n : Nat)
  | buildMapOfKeys (n : Nat)
  | buildText (n : Nat)
  | format (flags : Nat)
  | unpack (n : Nat)
  | binary (op : Operator) (inPlace : Bool)
  | not
  | negate
  | compare (c : Comparison)
  | same (inverted : Bool)
  | contains (inverted : Bool)
  | jump (target : Nat)
  /-- Pops the top and jumps if it counts as the given truth value. -/
  | jumpWhen (on : Bool) (target : Nat)
  /-- Jumps if the top counts as the given truth value, and pops it otherwise. -/
  | jumpOrPop (on : Bool) (target : Nat)
  | iterate
  | next (target : Nat)
  | keywords (names : List String)
  | call (n : Nat)
  | makeFunction (flags : Nat)
  | loadClassBuilder
  | return
  | makeGenerator
  | yield
  | importModule (name : String)
  | importFrom (name : String)
  | raise (n : Nat)
  | reraise
  | pushHandled
  | popHandled
  | matchException
  | loadAssertion
  | unknown (opname : String)
  deriving Inhabited

namespace Operand

/-- The text of an operand. -/
def name : Operand → String
  | .text s => s
  | _ => ""

/-- The number of an operand. -/
def count : Operand → Nat
  | .number i => i.toNat
  | _ => 0

/-- The value that listeners see as the argument of an instruction. -/
def value : Operand → Value
  | .number i => .int i
  | .text s => .str s
  | .texts ss => .tuple (ss.map .str)
  | .constant (.bool b) => .bool b
  | .constant (.int i) => .int i
  | .constant (.float x) => .float x
  | .constant (.str s) => .str s
  | _ => .none

end Operand

namespace Operation

/-- The operator that a symbol stands for; a symbol that ends in an equals sign works in place. -/
def operator? (symbol : String) : Option Operation :=
  match Bindings.find? symbol Operator.symbols with
  | some op => some (.binary op false)
  | none =>
    if symbol.endsWith "=" then
      let plain := String.ofList symbol.toList.dropLast
      (Bindings.find? plain Operator.symbols).map fun op => .binary op true
    else none

/-- The operations whose names say all. -/
def plain : List (String × Operation) :=
  [("RESUME", .resume), ("NOP", .idle), ("PRECALL", .idle), ("CACHE", .idle),
   ("POP_TOP", .popTop), ("PUSH_NULL", .pushNull), ("COPY_FREE_VARS", .copyFreeVariables),
   ("BINARY_SUBSCR", .subscript), ("STORE_SUBSCR", .storeSubscript), ("UNARY_NOT", .not),
   ("UNARY_NEGATIVE", .negate), ("GET_ITER", .iterate), ("LOAD_BUILD_CLASS", .loadClassBuilder),
   ("RETURN_VALUE", .return), ("RETURN_GENERATOR", .makeGenerator), ("YIELD_VALUE", .yield),
   ("RERAISE", .reraise), ("PUSH_EXC_INFO", .pushHandled), ("POP_EXCEPT", .popHandled),
   ("CHECK_EXC_MATCH", .matchException), ("LOAD_ASSERTION_ERROR", .loadAssertion)]

/-- The operations with a name as operand. -/
def named : List (String × (String → Operation)) :=
  [("LOAD_NAME", .loadName), ("STORE_NAME", .storeName), ("DELETE_NAME", .deleteName),
   ("STORE_GLOBAL", .storeGlobal), ("DELETE_GLOBAL", .deleteGlobal), ("LOAD_FAST", .loadFast),
   ("STORE_FAST", .storeFast), ("DELETE_FAST", .deleteFast), ("LOAD_DEREF", .loadShared),
   ("STORE_DEREF", .storeShared), ("DELETE_DEREF", .deleteShared), ("LOAD_CLOSURE", .loadCell),
   ("MAKE_CELL", .makeCell), ("LOAD_ATTR", .loadAttribute), ("STORE_ATTR", .storeAttribute),
   ("DELETE_ATTR", .deleteAttribute), ("LOAD_METHOD", .loadMethod),
   ("IMPORT_NAME", .importModule), ("IMPORT_FROM", .importFrom)]

/-- The operations with a number as operand. -/
def counted : List (String × (Nat → Operation)) :=
  [("COPY", .copy), ("SWAP", .swap), ("BUILD_TUPLE", .buildTuple), ("BUILD_LIST", .buildList),
   ("LIST_EXTEND", .extendList), ("LIST_APPEND", .appendList), ("BUILD_MAP", .buildMap),
   ("BUILD_CONST_KEY_MAP", .buildMapOfKeys), ("BUILD_STRING", .buildText),
   ("FORMAT_VALUE", .format), ("UNPACK_SEQUENCE", .unpack), ("CALL", .call),
   ("MAKE_FUNCTION", .makeFunction), ("RAISE_VARARGS", .raise)]

/-- The operations that jump to an offset. -/
def jumping : List (String × (Nat → Operation)) :=
  [("JUMP_FORWARD", .jump), ("JUMP_BACKWARD", .jump), ("JUMP_BACKWARD_NO_INTERRUPT", .jump),
   ("POP_JUMP_FORWARD_IF_FALSE", .jumpWhen false), ("POP_JUMP_BACKWARD_IF_FALSE", .jumpWhen false),
   ("POP_JUMP_FORWARD_IF_TRUE", .jumpWhen true), ("POP_JUMP_BACKWARD_IF_TRUE", .jumpWhen true),
   ("JUMP_IF_FALSE_OR_POP", .jumpOrPop false), ("JUMP_IF_TRUE_OR_POP", .jumpOrPop true),
   ("FOR_ITER", .next)]

/-- The operation that a name with a number and an operand stands for. -/
def read (opname : String) (number : Nat) (operand : Operand) : Operation :=
  match Bindings.find? opname plain, Bindings.find? opname named, Bindings.find? opname counted,
      Bindings.find? opname jumping with
  | some op, _, _, _ => op
  | _, some op, _, _ => op operand.name
  | _, _, some op, _ => op number
  | _, _, _, some op => op operand.count
  | none, none, none, none =>
    match opname with
    | "LOAD_CONST" =>
      match operand with
      | .constant l => .loadConstant l number
      | .code index => .loadCode index
      | _ => .loadConstant .none
    | "LOAD_GLOBAL" => .loadGlobal operand.name (number % 2 == 1)
    | "BINARY_OP" => (operator? operand.name).getD (.unknown opname)
    | "COMPARE_OP" =>
      ((Bindings.find? operand.name Comparison.symbols).map .compare).getD (.unknown opname)
    | "IS_OP" => .same (number == 1)
    | "CONTAINS_OP" => .contains (number == 1)
    | "KW_NAMES" =>
      match operand with
      | .texts ss => .keywords ss
      | _ => .keywords []
    | _ => .unknown opname

end Operation

end StateAtlas
