import StateAtlas.Text.Printable

set_option autoImplicit false

/-!
# Quoted text

Text is quoted with single quotes, or with double quotes when it holds a single quote and no
double one. The quote and the backslash are escaped, tab, newline and carriage return have short
names, and every other character that is not printable is written by its code point in two, four
or eight hexadecimal digits.

## Main definitions

* `StateAtlas.Quoted.text` — a text in quotes.
* `StateAtlas.Quoted.bytes` — a sequence of bytes in quotes.
-/

namespace StateAtlas

namespace Quoted

/-- The quote for characters: double if there is a single quote and no double one among them. -/
def quoteFor (cs : List Char) : Char :=
  if cs.contains '\'' && !cs.contains '"' then '"' else '\''

/-- Exactly `width` hexadecimal digits of a number, lower case. -/
def hex (width n : Nat) : List Char :=
  match width with
  | 0 => []
  | w + 1 => hex w (n / 16) ++ [Nat.digitChar (n % 16)]

/-- The escapes that text and bytes share. -/
def short? (quote c : Char) : Option (List Char) :=
  if c == quote || c == '\\' then some ['\\', c]
  else if c == '\t' then some ['\\', 't']
  else if c == '\n' then some ['\\', 'n']
  else if c == '\r' then some ['\\', 'r']
  else none

/-- One character of a quoted text. -/
def char (quote c : Char) : List Char :=
  match short? quote c with
  | some cs => cs
  | none =>
    let n := c.toNat
    if printableCharacters.contains c then [c]
    else if n < 0x100 then '\\' :: 'x' :: hex 2 n
    else if n < 0x10000 then '\\' :: 'u' :: hex 4 n
    else '\\' :: 'U' :: hex 8 n

/-- One byte of a quoted sequence: a printable ASCII character as it is. -/
def byte (quote : Char) (b : UInt8) : List Char :=
  let c := Char.ofNat b.toNat
  match short? quote c with
  | some cs => cs
  | none => if ' ' ≤ c && c ≤ '~' then [c] else '\\' :: 'x' :: hex 2 b.toNat

/-- Characters in quotes. -/
def chars (cs : List Char) : List Char :=
  let quote := quoteFor cs
  quote :: (cs.flatMap (char quote) ++ [quote])

/-- A text in quotes. -/
def text (s : String) : String := String.ofList (chars s.toList)

/-- A sequence of bytes in quotes, marked by a letter. -/
def bytes (bs : List UInt8) : String :=
  let quote := quoteFor (bs.map fun b => Char.ofNat b.toNat)
  String.ofList ('b' :: quote :: (bs.flatMap (byte quote) ++ [quote]))

example : text "it's" = "\"it's\"" := by decide +kernel
example : text "a\n\u200b" = "'a\\n\\u200b'" := by decide +kernel

end Quoted

end StateAtlas
