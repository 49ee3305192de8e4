import StateAtlas.Yaml.Property

set_option autoImplicit false

/-!
# The texts of scalars

A scalar is written plainly, between quotes, or as a block of indented lines. Line breaks inside
plain and quoted scalars are folded: one becomes a space, of several the first is dropped.

## Main definitions

* `StateAtlas.Cursor.quoted` — a scalar between quotes.
* `StateAtlas.Cursor.plain` — a plain scalar.
* `StateAtlas.Cursor.block` — a block of lines.
-/

namespace StateAtlas

namespace Cursor

/-! ### Quoted scalars -/

/-- The characters that stand for others after a backslash. -/
def escapes : List (Char × Char) :=
  [('0', '\x00'), ('a', '\x07'), ('b', '\x08'), ('t', '\t'), ('\t', '\t'), ('n', '\n'),
   ('v', '\x0b'), ('f', '\x0c'), ('r', '\r'), ('e', '\x1b'), (' ', ' '), ('"', '"'),
   ('\\', '\\'), ('/', '/'), ('N', '\x85'), ('_', '\xa0'), ('L', '\u2028'), ('P', '\u2029')]

/-- The number of hexadecimal digits after some letters that follow a backslash. -/
def codeLengths : List (Char × Nat) := [('x', 2), ('u', 4), ('U', 8)]

/-- The character of a code. -/
def characterOf (code : Nat) : Except DocumentFault Char :=
  if code < 0x110000 then
    .ok (if 0xd800 ≤ code && code < 0xe000 then '\ufffd' else Char.ofNat code)
  else .error (.content (if code < Nat.pow 2 31 then .notCharacter else .codeTooLarge))

/-- Empty lines inside a quoted scalar, which the marks of documents must not start; `fuel`
bounds their number. -/
def quotedLines : Nat → Cursor → Reading (List Char)
  | 0, c => .ok ([], c)
  | fuel + 1, c =>
    if c.atSeparator then .error .malformed
    else
      let c := c.skip fun ch => ch == ' ' || ch == '\t'
      if isLineBreak c.peek then
        let (b, c) := c.lineBreak
        (quotedLines fuel c).map fun (bs, c) => (b ++ bs, c)
      else .ok ([], c)

/-- What is written after a backslash. -/
def escape (c : Cursor) : Reading (List Char) :=
  let ch := c.peek
  match (escapes.find? fun e => e.1 == ch).map Prod.snd,
      (codeLengths.find? fun e => e.1 == ch).map Prod.snd with
  | some out, _ => .ok ([out], c.step)
  | none, some n =>
    let digits := (c.step.rest.take n).filterMap hexDigit?
    if digits.length < n then .error .malformed
    else
      (characterOf (digits.foldl (fun v d => 16 * v + d) 0)).map fun out =>
        ([out], c.forward (n + 1))
  | none, none =>
    if isLineBreak ch then quotedLines (c.rest.length + 1) c.lineBreak.2 else .error .malformed

/-- Whether a character stands for itself between quotes. -/
def isQuotedChar (c : Char) : Bool := !endsWord c && c != '\'' && c != '"' && c != '\\'

/-- The characters between quotes up to a blank or the last quote; `fuel` bounds the number of
pieces. -/
def quotedWord (double : Bool) : Nat → Cursor → Reading (List Char)
  | 0, c => .ok ([], c)
  | fuel + 1, c =>
    let (cs, c) := c.span isQuotedChar
    let ch := c.peek
    let onward (piece : List Char) (c : Cursor) : Reading (List Char) :=
      (quotedWord double fuel c).map fun (rest, c) => (cs ++ piece ++ rest, c)
    if !double && ch == '\'' && c.peekAt 1 == '\'' then onward ['\''] (c.forward 2)
    else if (double && ch == '\'') || (!double && (ch == '"' || ch == '\\')) then
      onward [ch] c.step
    else if double && ch == '\\' then
      match c.step.escape with
      | .ok (piece, c) => onward piece c
      | .error e => .error e
    else .ok (cs, c)

/-- Blanks between quotes; those around a line break are folded. -/
def quotedGap (c : Cursor) : Reading (List Char) :=
  let (blanks, c) := c.span fun ch => ch == ' ' || ch == '\t'
  if c.atEnd then .error .malformed
  else if isLineBreak c.peek then
    let (b, c) := c.lineBreak
    (quotedLines (c.rest.length + 1) c).map fun (bs, c) =>
      ((if b != ['\n'] then b else if bs.isEmpty then [' '] else []) ++ bs, c)
  else .ok (blanks, c)

/-- The characters up to the last quote; `fuel` bounds the number of words. -/
def quotedRest (double : Bool) : Nat → Cursor → Reading (List Char)
  | 0, _ => .error .malformed
  | fuel + 1, c =>
    match quotedWord double (c.rest.length + 1) c with
    | .error e => .error e
    | .ok (word, c) =>
      if c.peek == (if double then '"' else '\'') then .ok (word, c.step)
      else
        match c.quotedGap with
        | .error e => .error e
        | .ok (gap, c) => (quotedRest double fuel c).map fun (rest, c) => (word ++ gap ++ rest, c)

/-- A scalar between quotes. -/
def quoted (c : Cursor) : Reading Token :=
  (quotedRest (c.peek == '"') (c.rest.length + 1) c.step).map fun (cs, c) =>
    (.scalar (String.ofList cs) false, c)

/-! ### Plain scalars -/

/-- Whether a character has a meaning between brackets. -/
def isFlowSign (c : Char) : Bool :=
  c == ',' || c == '?' || c == '[' || c == ']' || c == '\x7b' || c == '\x7d'

/-- The length of a word of a plain scalar. -/
def plainLength (inFlow : Bool) : List Char → Nat
  | [] => 0
  | c :: cs =>
    let next := cs.headD '\x00'
    let ends :=
      endsWord c ||
      (c == ':' && (endsWord next || (inFlow && next != '?' && isFlowSign next))) ||
      (inFlow && isFlowSign c)
    if ends then 0 else plainLength inFlow cs + 1

/-- Empty lines inside a plain scalar; `none` if the mark of a document follows. -/
def plainLines : Nat → Cursor → Option (List Char) × Cursor
  | 0, c => (some [], c)
  | fuel + 1, c =>
    if c.atSeparator then (none, c)
    else
      let c := c.skipSpaces
      if isLineBreak c.peek then
        let (b, c) := c.lineBreak
        let (bs, c) := plainLines fuel c
        (bs.map (b ++ ·), c)
      else (some [], c)

/-- Blanks inside a plain scalar, whether there was a line break among them, and the position
after them. Without blanks, or if the mark of a document follows, the scalar is over. -/
def plainGap (c : Cursor) : List Char × Bool × Cursor :=
  let (blanks, c) := c.span (· == ' ')
  if isLineBreak c.peek then
    let (b, c) := c.lineBreak
    match plainLines (c.rest.length + 1) c with
    | (none, c) => ([], true, c)
    | (some bs, c) =>
      ((if b != ['\n'] then b else if bs.isEmpty then [' '] else []) ++ bs, true, c)
  else (blanks, false, c)

/-- The words of a plain scalar with the folded blanks between them, and whether a line break came
last. Outside brackets its lines are indented beyond a column. -/
def plainWords (inFlow : Bool) (indent : Int) :
    Nat → List Char → Bool → Cursor → List Char × Bool × Cursor
  | 0, _, broken, c => ([], broken, c)
  | fuel + 1, gap, broken, c =>
    let n := if c.peek == '#' then 0 else plainLength inFlow c.rest
    if n == 0 then ([], broken, c)
    else
      let word := gap ++ c.rest.take n
      let (gap, broken, c) := (c.forward n).plainGap
      if gap.isEmpty || c.peek == '#' || (!inFlow && (c.column : Int) < indent) then
        (word, broken, c)
      else
        let (rest, broken, c) := plainWords inFlow indent fuel gap broken c
        (word ++ rest, broken, c)

/-- A plain scalar, and whether a line break came last. -/
def plain (c : Cursor) (inFlow : Bool) (indent : Int) : Token × Bool × Cursor :=
  let (cs, broken, c) := plainWords inFlow indent (c.rest.length + 1) [] false c
  (.scalar (String.ofList cs) true, broken, c)

/-! ### Blocks -/

/-- What becomes of the line breaks at the end of a block. -/
inductive Chomping where
  | strip
  /-- One is kept. -/
  | clip
  | keep
  deriving DecidableEq, Repr

/-- The sign for the end of a block. -/
def chomping? (c : Char) : Option Chomping :=
  if c == '+' then some .keep else if c == '-' then some .strip else none

/-- The indentation that the header of a block gives, which is not zero. -/
def blockIndent? (c : Char) : Option (Option Nat) :=
  if c == '0' then some none else if c.isDigit then some (some (c.toNat - 48)) else none

/-- The header of a block: the two signs in any order. -/
def blockHeader (c : Cursor) : Reading (Chomping × Option Nat) :=
  let finish (h : Chomping × Option Nat) (c : Cursor) : Reading (Chomping × Option Nat) :=
    if endsField c.peek then .ok (h, c) else .error .malformed
  match chomping? c.peek, blockIndent? c.peek with
  | some how, _ =>
    match blockIndent? c.step.peek with
    | some none => .error .malformed
    | some n => finish (how, n) (c.forward 2)
    | none => finish (how, none) c.step
  | none, some none => .error .malformed
  | none, some n =>
    match chomping? c.step.peek with
    | some how => finish (how, n) (c.forward 2)
    | none => finish (.clip, n) c.step
  | none, none => finish (.clip, none) c

/-- Empty lines before a block, with the widest indentation among them. -/
def leadingLines : Nat → Nat → Cursor → List Char × Nat × Cursor
  | 0, widest, c => ([], widest, c)
  | fuel + 1, widest, c =>
    if c.peek == ' ' then leadingLines fuel (max widest c.step.column) c.step
    else if isLineBreak c.peek then
      let (b, c) := c.lineBreak
      let (bs, widest, c) := leadingLines fuel widest c
      (b ++ bs, widest, c)
    else ([], widest, c)

/-- Empty lines inside a block, and the position after the indentation of the next one. -/
def emptyLines (indent : Nat) : Nat → Cursor → List Char × Cursor
  | 0, c => ([], c)
  | fuel + 1, c =>
    let c := c.skipSpacesTo indent
    if isLineBreak c.peek then
      let (b, c) := c.lineBreak
      let (bs, c) := emptyLines indent fuel c
      (b ++ bs, c)
    else ([], c)

/-- The lines of a block with the breaks between them, the last line break, and the empty lines
after it. -/
def blockLines (folded : Bool) (indent : Nat) :
    Nat → List Char → Cursor → List Char × List Char × List Char × Cursor
  | 0, breaks, c => ([], [], breaks, c)
  | fuel + 1, breaks, c =>
    let isInside (c : Cursor) : Bool := c.column == indent && !c.atEnd
    let isFlush (c : Cursor) : Bool := c.peek != ' ' && c.peek != '\t'
    if isInside c then
      let flush := isFlush c
      let (line, c) := c.span (!endsLine ·)
      let (last, c) := c.lineBreak
      let (empty, c) := emptyLines indent (c.rest.length + 1) c
      if isInside c then
        let joint :=
          if folded && last == ['\n'] && flush && isFlush c then
            (if empty.isEmpty then [' '] else [])
          else last
        let (rest, last, final, c) := blockLines folded indent fuel empty c
        (breaks ++ line ++ joint ++ rest, last, final, c)
      else (breaks ++ line, last, empty, c)
    else ([], [], breaks, c)

/-- A block of lines that are indented beyond a column. -/
def block (c : Cursor) (parent : Int) : Reading Token :=
  let folded := c.peek == '>'
  match c.step.blockHeader with
  | .error e => .error e
  | .ok ((chomping, increment), c) =>
    match c.emptyLine with
    | .error e => .error e
    | .ok c =>
      let least := (max (parent + 1) 1).toNat
      let (breaks, indent, c) :=
        match increment with
        | none =>
          let (breaks, widest, c) := leadingLines (c.rest.length + 1) 0 c
          (breaks, max least widest, c)
        | some n =>
          let (breaks, c) := emptyLines (least + n - 1) (c.rest.length + 1) c
          (breaks, least + n - 1, c)
      let (text, last, final, c) := blockLines folded indent (c.rest.length + 1) breaks c
      let tail :=
        match chomping with
        | .strip => []
        | .clip => last
        | .keep => last ++ final
      .ok (.scalar (String.ofList (text ++ tail)) false, c)

end Cursor

end StateAtlas
