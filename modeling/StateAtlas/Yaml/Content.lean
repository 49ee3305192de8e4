import StateAtlas.Number.Decimal
import StateAtlas.Number.Real
import StateAtlas.Text.Base64
import StateAtlas.Yaml.Node

set_option autoImplicit false

/-!
# What documents hold

Every node of a known tag is a datum. Mappings may take over the entries of other mappings by
merging; of equal keys the last one wins, at the place of the first.

## Main definitions

* `StateAtlas.Scalar.integer`, `StateAtlas.Scalar.decimal`, … — the data of scalars.
* `StateAtlas.Node.merged` — the entries of a mapping with those of other mappings it merges.
* `StateAtlas.Node.datum` — the datum that a node is.
* `StateAtlas.Datum.ofDocument` — the datum of a document.
-/

namespace StateAtlas

/-- What a node is worth, or why it is worth nothing. -/
abbrev Content := Except DocumentFault Datum

/-! ### Scalars -/

namespace Scalar

/-- A scalar that has no value. -/
def invalid {α : Type} (f : Fault) : Except DocumentFault α := .error (.content f)

/-- An integer in base ten. -/
def plainInteger (s : String) : Except DocumentFault Int :=
  match readDigits? s with
  | some (i, count) => if digitLimit < count then invalid (.integerTextTooLong count) else .ok i
  | none => invalid (.notNumeral 10 s)

/-- An integer in another base. -/
def numeral (base : Nat) (s : String) : Except DocumentFault Int :=
  match readNumeral? base s with
  | some i => .ok i
  | none => invalid (.notNumeral base s)

/-- The number of pieces of which each counts sixty of the next. -/
def sixtieths (pieces : List String) : Except DocumentFault Int :=
  pieces.foldlM (fun n s => (plainInteger s).map (60 * n + ·)) 0

/-- An integer: in base two, eight, ten or sixteen, or in pieces of sixty. -/
def integer (text : String) : Except DocumentFault Int :=
  match splitSign (text.toList.filter (· != '_')) with
  | (false, []) => invalid .emptyNumber
  | (negative, cs) =>
    let s := String.ofList cs
    let magnitude :=
      match cs with
      | [] => invalid .emptyNumber
      | ['0'] => .ok 0
      | '0' :: 'b' :: rest => numeral 2 (String.ofList rest)
      | '0' :: 'x' :: rest => numeral 16 (String.ofList rest)
      | '0' :: _ => numeral 8 s
      | _ => if cs.contains ':' then sixtieths (splitText ':' s) else plainInteger s
    magnitude.map fun i => if negative then -i else i

/-- A decimal number. -/
def real (s : String) : Except DocumentFault Float :=
  match readReal? s with
  | some x => .ok x
  | none => invalid (.notReal s)

/-- The number of pieces of which each counts sixty of the next, added from the last one on. -/
def realSixtieths (pieces : List Float) : Float :=
  (pieces.reverse.foldl (fun (sum, unit) x => (sum + x * unit, unit * 60.0)) (0.0, 1.0)).1

/-- A decimal number: with a point, infinite, not a number, or in pieces of sixty. -/
def decimal (text : String) : Except DocumentFault Float :=
  let cs := (text.toList.filter (· != '_')).map Char.toLower
  if cs.isEmpty then invalid .emptyNumber
  else
    let (negative, rest) := splitSign cs
    let s := String.ofList rest
    let signed (x : Float) : Float := if negative then -x else x
    if s == ".inf" then .ok (signed (1.0 / 0.0))
    else if s == ".nan" then .ok (0.0 / 0.0)
    else if rest.contains ':' then
      ((splitText ':' s).mapM real).map fun xs => signed (realSixtieths xs)
    else (real s).map signed

/-- A truth value by one of its words. -/
def truth (text : String) : Except DocumentFault Bool :=
  let word := text.map Char.toLower
  if ["yes", "true", "on"].contains word then .ok true
  else if ["no", "false", "off"].contains word then .ok false
  else invalid (.notTruthValue word)

/-- A date with an optional time. One line break at the end is passed over. -/
def timestamp (text : String) : Content :=
  let cs := text.toList
  let cs := if cs.getLast? == some '\n' then cs.dropLast else cs
  match Timestamp.read? cs with
  | none => invalid .notTimestamp
  | some t =>
    match t.fault? with
    | some f => invalid (.calendar f)
    | none => .ok t.datum

/-- Bytes in base 64. -/
def binary (text : String) : Content :=
  if text.toList.all (·.toNat < 128) then
    match Base64.decode? text with
    | some bs => .ok (.bytes bs)
    | none => .error .malformed
  else .error .malformed

/-- The datum of a scalar with a tag. -/
def datum (tag : Tag) (text : String) : Content :=
  match tag with
  | .null => .ok .null
  | .bool => (truth text).map .bool
  | .int => (integer text).map .int
  | .float => (decimal text).map .float
  | .binary => binary text
  | .timestamp => timestamp text
  | .str => .ok (.str text)
  | _ => .error .malformed

end Scalar

namespace Datum

/-! ### Keys -/

/-- The number a datum is; a truth value is zero or one. -/
def number? : Datum → Option Real
  | .bool b => some (.int (if b then 1 else 0))
  | .int i => some (.int i)
  | .float x => some (.float x)
  | _ => none

/-- Whether two data are the same key. -/
def isSameKey (a b : Datum) : Bool :=
  match a, b with
  | .float x, .float y => x == y || (x.isNaN && y.isNaN)
  | .null, .null => true
  | .str s, .str t => s == t
  | .bytes s, .bytes t => s == t
  | .foreign _ _ s, .foreign _ _ t => s == t
  | a, b =>
    match a.number?, b.number? with
    | some x, some y => x.equal y
    | _, _ => false

/-- Whether a datum can be a key. -/
def canBeKey : Datum → Bool
  | .list _ | .dict _ | .cycle _ => false
  | .set frozen _ => frozen
  | _ => true

/-- Sets an entry of a mapping; an equal key keeps its place and its form. -/
def setEntry (key value : Datum) : List (Datum × Datum) → List (Datum × Datum)
  | [] => [(key, value)]
  | (k, v) :: es => if k.isSameKey key then (k, value) :: es else (k, v) :: setEntry key value es

end Datum

namespace Node

/-! ### Merging -/

/-- Whether a node has a tag. -/
def hasTag (t : Tag) : Node → Bool
  | .scalar tag _ | .sequence tag _ | .mapping tag _ => tag == t
  | .enclosing _ => false

mutual

/-- The entries of a mapping: first those of the mappings it merges, the last of a list of them
first, then its own. -/
def merged (entries : List (Node × Node)) : Except DocumentFault (List (Node × Node)) :=
  match mergedParts entries with
  | .ok (taken, own) => .ok (taken ++ own)
  | .error e => .error e

/-- The entries that a mapping takes over from others, and its own. -/
def mergedParts : List (Node × Node) →
    Except DocumentFault (List (Node × Node) × List (Node × Node))
  | [] => .ok ([], [])
  | (k, v) :: rest =>
    match if k.hasTag .merge then mergedValue v else .ok [], mergedParts rest with
    | .error e, _ | _, .error e => .error e
    | .ok taken, .ok (more, own) =>
      .ok (taken ++ more, if k.hasTag .merge then own else (k, v) :: own)

/-- The entries of a mapping, or of all mappings of a list, that are merged into another one. -/
def mergedValue : Node → Except DocumentFault (List (Node × Node))
  | .mapping _ entries => merged entries
  | .sequence _ items => mergedItems items
  | .enclosing true => .ok []
  | _ => .error .malformed

/-- The entries of the mappings of a list, those of the last one first. -/
def mergedItems : List Node → Except DocumentFault (List (Node × Node))
  | [] => .ok []
  | n :: ns =>
    match mergedItem n, mergedItems ns with
    | .error e, _ | _, .error e => .error e
    | .ok own, .ok more => .ok (more ++ own)

/-- The entries of a mapping of a list. -/
def mergedItem : Node → Except DocumentFault (List (Node × Node))
  | .mapping _ entries => merged entries
  | .enclosing true => .ok []
  | _ => .error .malformed

end

/-! ### Data -/

mutual

/-- The number of nodes on the longest way down from a node. -/
def depth : Node → Nat
  | .scalar .. | .enclosing _ => 1
  | .sequence _ items => depthOfItems items + 1
  | .mapping _ entries => depthOfEntries entries + 1

/-- The greatest depth of some nodes. -/
def depthOfItems : List Node → Nat
  | [] => 0
  | n :: ns => max (depth n) (depthOfItems ns)

/-- The greatest depth of some keys and values. -/
def depthOfEntries : List (Node × Node) → Nat
  | [] => 0
  | (k, v) :: es => max (max (depth k) (depth v)) (depthOfEntries es)

end

/-- The text of a scalar, or of the scalar that stands for its whole mapping. -/
def scalarText? : Nat → Node → Option String
  | 0, _ => none
  | _ + 1, .scalar _ text => some text
  | room + 1, .mapping _ entries =>
    (entries.find? fun e => e.1.hasTag .value).bind fun e => e.2.scalarText? room
  | _ + 1, _ => none

/-- A key as it is read: one for the value of a mapping is a text. -/
def asKey : Node → Node
  | .scalar .value text => .scalar .str text
  | n => n

/-- The data of the entries of a mapping, of which the nodes' data are given. -/
def entriesBy (datum : Node → Content) (entries : List (Node × Node)) :
    Except DocumentFault (List (Datum × Datum)) :=
  entries.foldlM (fun done (k, v) =>
    match datum k.asKey with
    | .error e => .error e
    | .ok key =>
      if key.canBeKey then (datum v).map fun value => Datum.setEntry key value done
      else .error .malformed) []

/-- The pair that a mapping of one entry is. -/
def pairBy (datum : Node → Content) : Node → Content
  | .mapping _ [(k, v)] =>
    match datum k, datum v with
    | .error e, _ | _, .error e => .error e
    | .ok key, .ok value => .ok (.tuple [key, value])
  | _ => .error .malformed

/-- The datum that a node is; `room` is at least its depth. -/
def datumWithin : Nat → Node → Content
  | 0, _ => .error .malformed
  | room + 1, n =>
    let inner := datumWithin room
    match n with
    | .enclosing isMapping => .ok (.cycle isMapping)
    | .scalar tag text => Scalar.datum tag text
    | .sequence .seq items => (items.mapM inner).map .list
    | .sequence .omap items | .sequence .pairs items => (items.mapM (pairBy inner)).map .list
    | .mapping .map entries => ((merged entries).bind (entriesBy inner)).map .dict
    | .mapping .set entries =>
      ((merged entries).bind (entriesBy inner)).map fun es => .set false (es.map Prod.fst)
    | .mapping tag _ =>
      match n.scalarText? (room + 1) with
      | some text => Scalar.datum tag text
      | none => .error .malformed
    | .sequence .. => .error .malformed

/-- The datum that a node is. -/
def datum (n : Node) : Content := n.datumWithin n.depth

end Node

/-- The datum of a document; an empty one holds nothing. -/
def Datum.ofDocument (s : String) : Content :=
  match Node.ofText s with
  | .error e => .error e
  | .ok none => .ok .null
  | .ok (some n) => n.datum

end StateAtlas
