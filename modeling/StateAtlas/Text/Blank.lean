import StateAtlas.Text.CharClass

set_option autoImplicit false

/-!
# Blank characters and trimming

The white space of Unicode: separators, the ASCII controls from tab to carriage return, the four
information separators, and next-line.

## Main definitions

* `StateAtlas.isBlank` — white space.
* `StateAtlas.trim` — a text without the white space at its two ends.
-/

namespace StateAtlas

/-- The white-space characters. -/
def blankCharacters : CharClass where
  edges :=
  [9, 14, 28, 33, 133, 134, 160, 161, 5760, 5761, 8192, 8203, 8232, 8234, 8239, 8240, 8287, 8288,
   12288, 12289]

/-- Whether a character is white space. -/
def isBlank (c : Char) : Bool := blankCharacters.contains c

/-- The characters of a text without the white space at its two ends. -/
def trimChars (cs : List Char) : List Char :=
  ((cs.dropWhile isBlank).reverse.dropWhile isBlank).reverse

/-- A text without the white space at its two ends. -/
def trim (s : String) : String :=
  String.ofList (trimChars s.toList)

example : trim " a b\t" = "a b" := by decide +kernel

end StateAtlas
