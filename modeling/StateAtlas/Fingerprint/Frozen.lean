import StateAtlas.Data.Datum
import StateAtlas.Fault
import StateAtlas.Number.Binary
import StateAtlas.Program.Value

set_option autoImplicit false

/-!
# Frozen values

A frozen value is an immutable picture of program data: constants, and tuples of frozen values.
Two pictures are the same when their constants are equal as numbers or as text, so a whole
floating-point number is the same as the integer, and a truth value the same as zero or one. What
is not a number is the same as nothing but the object it is, and an object that one execution has
made is none of another execution.

A picture may hold places of which no picture can be made. Such a picture is of no use as a whole.

## Main definitions

* `StateAtlas.Frozen` — constants and tuples.
* `StateAtlas.Frozen.text?` — the written form of a picture, by which the members of sets are
  arranged.
* `StateAtlas.Frozen.fault?` — what has gone wrong where a picture could not be made.
* `StateAtlas.Frozen.key` — a list of tokens that is equal for equal pictures of one execution.
* `StateAtlas.Frozen.keyIn` — the tokens as they are compared across executions.
-/

namespace StateAtlas

/-- An immutable picture of program data. -/
inductive Frozen where
  | none
  | bool (b : Bool)
  | int (i : Int)
  /-- An integer that is written as a text of its own. -/
  | named (text : String) (i : Int)
  | float (x : Float)
  | complex (re im : Float)
  | str (s : String)
  | bytes (bs : List UInt8)
  /-- Something that is equal to itself only, by the object it is, with what is shown of it. -/
  | object (identity : Identity) (shown : Datum)
  /-- What no picture can be made of, by what has gone wrong. -/
  | unmade (fault : Fault)
  | tuple (items : List Frozen)
  deriving Inhabited

namespace Frozen

mutual

/-- A picture as a datum. -/
def datum : Frozen → Datum
  | .none => .null
  | .bool b => .bool b
  | .int i => .int i
  | .named text _ => .foreign "int" text text
  | .float x => .float x
  | .complex re im => .complex re im
  | .str s => .str s
  | .bytes bs => .bytes bs
  | .object _ shown => shown
  | .unmade fault => .foreign "error" fault.message fault.message
  | .tuple items => .tuple (data items)

/-- Pictures as data. -/
def data : List Frozen → List Datum
  | [] => []
  | f :: fs => datum f :: data fs

end

/-- The written form of a picture, unless an integer in it has too many digits. -/
def text? (f : Frozen) : Option String := f.datum.quoted?

mutual

/-- What has gone wrong first where a picture could not be made. -/
def fault? : Frozen → Option Fault
  | .unmade fault => some fault
  | .tuple items => faultOf? items
  | _ => Option.none

/-- What has gone wrong first where one of some pictures could not be made. -/
def faultOf? : List Frozen → Option Fault
  | [] => Option.none
  | f :: fs => f.fault? <|> faultOf? fs

end

/-- A constant, or the start of a tuple of some length. -/
inductive Token where
  | opening (length : Nat)
  | none
  | number (i : Int)
  /-- A number that is not whole, by its bits. -/
  | fraction (bits : UInt64)
  | pair (re im : UInt64)
  | str (s : String)
  | bytes (bs : List UInt8)
  | object (identity : Identity)
  | unmade (fault : Fault)
  deriving DecidableEq, Repr

/-- The token of a floating-point number. -/
def Token.ofFloat (x : Float) : Token :=
  match (Binary.ofFloat x).whole? with
  | some i => .number i
  | Option.none => .fraction x.toBits

/-- The token of a complex number; the sign of a zero does not count. -/
def Token.ofComplex (re im : Float) : Token :=
  if im == 0.0 then Token.ofFloat re else .pair (re + 0.0).toBits (im + 0.0).toBits

mutual

/-- The tokens of a picture, before other tokens. -/
def tokens (f : Frozen) (rest : List Token) : List Token :=
  match f with
  | .none => .none :: rest
  | .bool b => .number (if b then 1 else 0) :: rest
  | .int i | .named _ i => .number i :: rest
  | .float x => Token.ofFloat x :: rest
  | .complex re im => Token.ofComplex re im :: rest
  | .str s => .str s :: rest
  | .bytes bs => .bytes bs :: rest
  | .object identity _ => .object identity :: rest
  | .unmade fault => .unmade fault :: rest
  | .tuple items => .opening items.length :: tokensOf items rest

/-- The tokens of pictures one after another, before other tokens. -/
def tokensOf (fs : List Frozen) (rest : List Token) : List Token :=
  match fs with
  | [] => rest
  | f :: fs => tokens f (tokensOf fs rest)

end

/-- The tokens of a picture; equal for equal pictures of one execution and for no others. -/
def key (f : Frozen) : List Token := tokens f []

/-- A token as it is compared across executions. -/
structure Mark where
  token : Token
  /-- The number of the execution that has made the object; zero for all that is not made by an
  execution. -/
  execution : Nat
  deriving DecidableEq, Repr

/-- A token in the execution of a number. -/
def Token.mark (execution : Nat) (t : Token) : Mark :=
  match t with
  | .object (.made _) => ⟨t, execution⟩
  | _ => ⟨t, 0⟩

/-- The tokens of a picture that was made in the execution of a number; equal for equal pictures and
for no others. -/
def keyIn (execution : Nat) (f : Frozen) : List Mark := f.key.map (Token.mark execution)

end Frozen

end StateAtlas
