set_option autoImplicit false

/-!
# Positions in a document

A cursor is a position in the characters of a document, with its line and column. The byte order
mark takes no column.

## Main definitions

* `StateAtlas.Cursor` — a position with the characters after it.
* `StateAtlas.Cursor.peek` — a character after the position; the null character stands for the
  end, since no document holds it.
* `StateAtlas.Cursor.span` — the characters of a class, and the position after them.
* `StateAtlas.Cursor.lineBreak` — the line break at the position.
-/

namespace StateAtlas

/-- Whether a character ends a line. -/
def isLineBreak (c : Char) : Bool :=
  c == '\n' || c == '\x85' || c == '\u2028' || c == '\u2029'

/-- Whether a character, or the end of the document, ends a line. -/
def endsLine (c : Char) : Bool := c == '\x00' || isLineBreak c

/-- Whether a character ends a line or is a space. -/
def endsField (c : Char) : Bool := c == ' ' || endsLine c

/-- Whether a character ends a line, or is a space or a tab. -/
def endsWord (c : Char) : Bool := c == '\t' || endsField c

/-- Whether a character may stand in the names of anchors, handles and directives. -/
def isNameChar (c : Char) : Bool :=
  ('0' ≤ c && c ≤ '9') || ('A' ≤ c && c ≤ 'Z') || ('a' ≤ c && c ≤ 'z') || c == '-' || c == '_'

/-- The value of a hexadecimal digit. -/
def hexDigit? (c : Char) : Option Nat :=
  if '0' ≤ c && c ≤ '9' then some (c.toNat - 48)
  else if 'A' ≤ c && c ≤ 'F' then some (c.toNat - 55)
  else if 'a' ≤ c && c ≤ 'f' then some (c.toNat - 87)
  else none

/-- A position in a document. -/
structure Cursor where
  /-- The characters after the position. -/
  rest : List Char
  index : Nat
  line : Nat
  column : Nat
  deriving Repr, Inhabited

namespace Cursor

/-- The start of a document. -/
def ofText (s : String) : Cursor := ⟨s.toList, 0, 0, 0⟩

/-- The `n`-th character after the position. -/
def peekAt (c : Cursor) (n : Nat) : Char := c.rest[n]?.getD '\x00'

/-- The character after the position. -/
def peek (c : Cursor) : Char := c.peekAt 0

/-- Whether this is the end of the document. -/
def atEnd (c : Cursor) : Bool := c.rest.isEmpty

/-- The position after one character. -/
def step (c : Cursor) : Cursor :=
  match c.rest with
  | [] => c
  | ch :: rest =>
    if isLineBreak ch then ⟨rest, c.index + 1, c.line + 1, 0⟩
    else ⟨rest, c.index + 1, c.line, if ch == '\ufeff' then c.column else c.column + 1⟩

/-- The position after some characters. -/
def forward (c : Cursor) : Nat → Cursor
  | 0 => c
  | n + 1 => c.step.forward n

/-- The characters of a class, and the position after them. -/
def span (c : Cursor) (p : Char → Bool) : List Char × Cursor :=
  let taken := c.rest.takeWhile p
  (taken, c.forward taken.length)

/-- The position after all characters of a class. -/
def skip (c : Cursor) (p : Char → Bool) : Cursor := (c.span p).2

/-- The position after all spaces. -/
def skipSpaces (c : Cursor) : Cursor := c.skip (· == ' ')

/-- The position after spaces, but not beyond a column. -/
def skipSpacesTo (c : Cursor) (column : Nat) : Cursor :=
  c.forward (min (c.rest.takeWhile (· == ' ')).length (column - c.column))

/-- The position after a comment, which goes to the end of the line. -/
def skipComment (c : Cursor) : Cursor :=
  if c.peek == '#' then c.skip (!endsLine ·) else c

/-- The line break at the position and the position after it; nothing if there is none. Only the
separators of lines and paragraphs stay what they are, the others are line feeds. -/
def lineBreak (c : Cursor) : List Char × Cursor :=
  let ch := c.peek
  if ch == '\n' || ch == '\x85' then (['\n'], c.step)
  else if isLineBreak ch then ([ch], c.step)
  else ([], c)

/-- Whether a mark of three equal characters stands alone in front of the rest of a line. -/
def atMark (c : Cursor) (mark : Char) : Bool :=
  c.rest.take 3 == [mark, mark, mark] && endsWord (c.peekAt 3)

/-- Whether the start or the end of a document is marked here. -/
def atSeparator (c : Cursor) : Bool := c.atMark '-' || c.atMark '.'

end Cursor

end StateAtlas
