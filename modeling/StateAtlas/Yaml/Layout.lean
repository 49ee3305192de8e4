import StateAtlas.Yaml.Scalar

set_option autoImplicit false

/-!
# The layout of documents

Tokens are read from left to right. Outside brackets the columns of sequence entries and keys
open and close blocks; these are tokens, too. That something was a key is known only at the colon
after it: the token for the key is then put in front of it, for which all places where a key may
have begun are kept.

## Main definitions

* `StateAtlas.PossibleKey` — a place where a key may have begun.
* `StateAtlas.Layout` — the tokens read so far with the open blocks and possible keys.
* `StateAtlas.Layout.tokensOf` — the tokens of a document, and what went wrong after them.
-/

namespace StateAtlas

/-- A place where a key may have begun. -/
structure PossibleKey where
  /-- The number of tokens before it. -/
  place : Nat
  /-- Whether there must be a colon after it. -/
  isRequired : Bool
  index : Nat
  line : Nat
  column : Nat
  deriving Repr

/-- The tokens read so far with the open blocks and possible keys. -/
structure Layout where
  cursor : Cursor
  tokens : Array Token
  /-- The number of open brackets. -/
  level : Int
  /-- The column of the innermost block. -/
  indent : Int
  /-- The columns of the blocks around it, the innermost first. -/
  outer : List Int
  allowsKey : Bool
  /-- The places where a key may have begun, at most one for each number of open brackets. -/
  keys : List (Int × PossibleKey)
  isDone : Bool

namespace Layout

/-- What follows from reading a token. -/
abbrev Result := Except DocumentFault Layout

/-- The layout of a document before its first token. -/
def ofText (s : String) : Layout where
  cursor := .ofText s
  tokens := #[]
  level := 0
  indent := -1
  outer := []
  allowsKey := true
  keys := []
  isDone := false

/-- Whether brackets are open. -/
def inFlow (x : Layout) : Bool := x.level != 0

/-- Adds a token. -/
def push (x : Layout) (t : Token) : Layout := { x with tokens := x.tokens.push t }

/-- Adds a token and goes to another position. -/
def pushAt (x : Layout) (t : Token) (c : Cursor) : Layout := { x.push t with cursor := c }

/-! ### Possible keys -/

/-- Forgets the possible key at the current level, unless there must be a colon after it. -/
def dropKey (x : Layout) : Result :=
  match x.keys.find? fun e => e.1 == x.level with
  | none => .ok x
  | some (_, k) =>
    if k.isRequired then .error .malformed
    else .ok { x with keys := x.keys.filter fun e => e.1 != x.level }

/-- Notes that a key may begin here. -/
def noteKey (x : Layout) : Result :=
  if x.allowsKey then
    x.dropKey.map fun x =>
      let c := x.cursor
      let isRequired := !x.inFlow && x.indent == c.column
      { x with keys := (x.level, ⟨x.tokens.size, isRequired, c.index, c.line, c.column⟩) :: x.keys }
  else .ok x

/-- Forgets possible keys that are too far away: a key is on one line and not too long. -/
def dropStaleKeys (x : Layout) : Result :=
  let isStale (k : PossibleKey) : Bool :=
    k.line != x.cursor.line || k.index + 1024 < x.cursor.index
  if x.keys.any fun e => isStale e.2 && e.2.isRequired then .error .malformed
  else .ok { x with keys := x.keys.filter fun e => !isStale e.2 }

/-! ### Blocks -/

/-- Closes blocks that are indented beyond a column; `outer` are the columns around. -/
def closeBlocks (x : Layout) (column : Int) : List Int → Layout
  | [] => x
  | i :: outer =>
    if column < x.indent then ({ x.push .blockEnd with indent := i, outer }).closeBlocks column outer
    else x

/-- Closes blocks that are indented beyond a column, unless brackets are open. -/
def unwind (x : Layout) (column : Int) : Layout :=
  if x.inFlow then x else x.closeBlocks column x.outer

/-- Opens a block at a column that is beyond the innermost one, with a token at a place. -/
def openBlock (x : Layout) (column : Nat) (place : Nat) (t : Token) : Layout :=
  if x.indent < column then
    { x with
      tokens := x.tokens.insertIdxIfInBounds place t
      outer := x.indent :: x.outer
      indent := column }
  else x

/-! ### Tokens -/

/-- Passes blanks, comments and line breaks; a key may begin on a new line. -/
def skipBlanks : Nat → Layout → Layout
  | 0, x => x
  | fuel + 1, x =>
    let c := x.cursor.skipSpaces.skipComment
    if isLineBreak c.peek then
      skipBlanks fuel { x with cursor := c.lineBreak.2, allowsKey := x.allowsKey || !x.inFlow }
    else { x with cursor := c }

/-- Closes all blocks before something that belongs to no block. -/
def leaveBlocks (x : Layout) : Result :=
  (x.unwind (-1)).dropKey.map fun x => { x with allowsKey := false }

/-- The end of the document. -/
def finish (x : Layout) : Result :=
  x.leaveBlocks.map fun x => { x.push .streamEnd with keys := [], isDone := true }

/-- A token that may be a key or begin one. -/
def item (x : Layout) (read : Cursor → Reading Token) : Result :=
  match x.noteKey with
  | .error e => .error e
  | .ok x => (read x.cursor).map fun (t, c) => { x.pushAt t c with allowsKey := false }

/-- The name of an anchor or of an alias. -/
def name (x : Layout) (kind : String → Token) : Result :=
  x.item fun c => c.anchorName.map fun (n, c) => (kind n, c)

/-- A plain scalar. -/
def plain (x : Layout) : Result :=
  x.noteKey.map fun x =>
    let (t, broken, c) := x.cursor.plain x.inFlow (x.indent + 1)
    { x.pushAt t c with allowsKey := broken }

/-- A block of lines. -/
def block (x : Layout) : Result :=
  match x.dropKey with
  | .error e => .error e
  | .ok x =>
    (x.cursor.block x.indent).map fun (t, c) => { x.pushAt t c with allowsKey := true }

/-- An opening bracket. -/
def openFlow (x : Layout) (t : Token) : Result :=
  x.noteKey.map fun x =>
    { x.pushAt t x.cursor.step with level := x.level + 1, allowsKey := true }

/-- A closing bracket. -/
def closeFlow (x : Layout) (t : Token) : Result :=
  x.dropKey.map fun x =>
    { x.pushAt t x.cursor.step with level := x.level - 1, allowsKey := false }

/-- A sign after which a key may begin. -/
def separator (x : Layout) (t : Token) (allowsKey : Bool) : Result :=
  x.dropKey.map fun x => { x.pushAt t x.cursor.step with allowsKey }

/-- A sign that may open a block. -/
def opener (x : Layout) (opening t : Token) (allowsKey : Bool) : Result :=
  if x.inFlow then x.separator t allowsKey
  else if x.allowsKey then
    (x.openBlock x.cursor.column x.tokens.size opening).separator t allowsKey
  else .error .malformed

/-- The colon before a value. What came before it is its key; otherwise the key was marked. -/
def value (x : Layout) : Result :=
  match x.keys.find? fun e => e.1 == x.level with
  | some (_, k) =>
    let x :=
      { x with
        keys := x.keys.filter fun e => e.1 != x.level
        tokens := x.tokens.insertIdxIfInBounds k.place .key
        allowsKey := false }
    let x := if x.inFlow then x else x.openBlock k.column k.place .blockMappingStart
    .ok (x.pushAt .value x.cursor.step)
  | none => x.opener .blockMappingStart .value (!x.inFlow)

/-- Three equal characters that mark the start or the end of a document. -/
def documentMark (x : Layout) (t : Token) : Result :=
  x.leaveBlocks.map fun x => x.pushAt t (x.cursor.forward 3)

/-- Whether a plain scalar may begin here. -/
def beginsPlain (x : Layout) : Bool :=
  let ch := x.cursor.peek
  let isSign := endsWord ch || "-?:,[]\x7b\x7d#&*!|>'\"%@\x60".toList.contains ch
  !isSign ||
    (!endsWord (x.cursor.peekAt 1) && (ch == '-' || (!x.inFlow && (ch == '?' || ch == ':'))))

/-- Whether a sign that stands alone outside brackets stands here. -/
def atSign (x : Layout) (sign : Char) : Bool :=
  x.cursor.peek == sign && (x.inFlow || endsWord (x.cursor.peekAt 1))

/-- Reads the token at the position. -/
def token (x : Layout) : Result :=
  let c := x.cursor
  let ch := c.peek
  if c.atEnd then x.finish
  else if ch == '%' && c.column == 0 then
    match x.leaveBlocks with
    | .error e => .error e
    | .ok x => c.directive.map fun (t, c) => x.pushAt t c
  else if c.column == 0 && c.atMark '-' then x.documentMark .documentStart
  else if c.column == 0 && c.atMark '.' then x.documentMark .documentEnd
  else if ch == '[' then x.openFlow .flowSequenceStart
  else if ch == '\x7b' then x.openFlow .flowMappingStart
  else if ch == ']' then x.closeFlow .flowSequenceEnd
  else if ch == '\x7d' then x.closeFlow .flowMappingEnd
  else if ch == ',' then x.separator .flowEntry true
  else if ch == '-' && endsWord (c.peekAt 1) then x.opener .blockSequenceStart .blockEntry true
  else if x.atSign '?' then x.opener .blockMappingStart .key (!x.inFlow)
  else if x.atSign ':' then x.value
  else if ch == '*' then x.name .alias
  else if ch == '&' then x.name .anchor
  else if ch == '!' then x.item Cursor.tag
  else if (ch == '|' || ch == '>') && !x.inFlow then x.block
  else if ch == '\'' || ch == '"' then x.item Cursor.quoted
  else if x.beginsPlain then x.plain
  else .error .malformed

/-- Reads the next token. -/
def next (x : Layout) : Result :=
  match (x.skipBlanks (x.cursor.rest.length + 1)).dropStaleKeys with
  | .error e => .error e
  | .ok x => (x.unwind x.cursor.column).token

/-- Reads tokens up to the end of the document or the first fault. -/
def run : Nat → Layout → List Token × Option DocumentFault
  | 0, x => (x.tokens.toList, some .malformed)
  | fuel + 1, x =>
    if x.isDone then (x.tokens.toList, none)
    else
      match x.next with
      | .ok x => run fuel x
      | .error e => (x.tokens.toList, some e)

/-- A document without the byte order mark at its start. -/
def start (s : String) : Layout :=
  let x := ofText s
  if x.cursor.peek == '\ufeff' then { x with cursor := x.cursor.step } else x

/-- The tokens of a document, and what went wrong after them. -/
def tokensOf (s : String) : List Token × Option DocumentFault := run (s.length + 2) (start s)

end Layout

end StateAtlas
