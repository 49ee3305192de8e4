import StateAtlas.Code.Object
import StateAtlas.Number.Decimal
import StateAtlas.Text.Identifier

set_option autoImplicit false

/-!
# Source texts of straight-line modules

A source text of this kind has one assignment of a constant on a line; lines that are blank or a
comment do nothing. Its code loads every constant and stores it under its name.

## Main definitions

* `StateAtlas.Source.assignment?` — the assignment on a line.
* `StateAtlas.Source.compile?` — the code of a source text.
-/

namespace StateAtlas

namespace Source

/-- The words that cannot be names. -/
def reserved : List String :=
  ["False", "None", "True", "and", "as", "assert", "async", "await", "break", "class", "continue",
   "def", "del", "elif", "else", "except", "finally", "for", "from", "global", "if", "import",
   "in", "is", "lambda", "nonlocal", "not", "or", "pass", "raise", "return", "try", "while",
   "with", "yield"]

/-- Whether a character separates words on a line. -/
def isGap (c : Char) : Bool := c == ' ' || c == '\t' || c == '\x0c'

/-- A line without the blanks around it. -/
def trimLine (cs : List Char) : List Char :=
  ((cs.dropWhile isGap).reverse.dropWhile isGap).reverse

/-- Whether nothing but a comment is left of a line. -/
def isComment (cs : List Char) : Bool :=
  match cs.dropWhile isGap with
  | [] => true
  | c :: _ => c == '#'

/-- A line up to its comment. -/
def withoutComment (cs : List Char) : List Char := cs.takeWhile (· != '#')

/-- Whether there are characters and all of them are plain digits. -/
def isDigits (cs : List Char) : Bool := !cs.isEmpty && cs.all Char.isDigit

/-- The number without a sign that some characters write. -/
def number? (negative : Bool) (cs : List Char) : Option Literal :=
  let signed := String.ofList (if negative then '-' :: cs else cs)
  if isDigits cs then
    if cs.head? = some '0' && !cs.all (· == '0') then none else (readInteger? signed).map .int
  else
    match cutFirst? '.' cs with
    | some (whole, fraction) =>
      if isDigits whole && isDigits fraction then (readFloat? signed).map .float else none
    | none => none

/-- The constant that a word stands for. -/
def word? (cs : List Char) : Option Literal :=
  match String.ofList cs with
  | "None" => some .none
  | "True" => some (.bool true)
  | "False" => some (.bool false)
  | _ =>
    match cs with
    | '-' :: rest => number? true rest
    | cs => number? false cs

/-- The text in quotes at the start of a line, if nothing but a comment follows it. -/
def quoted? (quote : Char) (cs : List Char) : Option Literal :=
  let inside := cs.takeWhile (· != quote)
  match cs.drop inside.length with
  | _ :: rest =>
    if inside.contains '\\' || !isComment rest then none else some (.str (String.ofList inside))
  | [] => none

/-- The constant on the right of an assignment. -/
def constant? (cs : List Char) : Option Literal :=
  match cs.dropWhile isGap with
  | '\'' :: rest => quoted? '\'' rest
  | '"' :: rest => quoted? '"' rest
  | rest => word? (trimLine (withoutComment rest))

/-- The assignment on a line. -/
def assignment? (line : List Char) : Option (String × Literal) :=
  match cutFirst? '=' line with
  | none => none
  | some (left, right) =>
    let name := String.ofList (trimLine left)
    if left.head?.any isGap || !isIdentifier name || reserved.contains name then none
    else (constant? right).map fun l => (name, l)

/-- The assignments on some lines. -/
def assignments? : List (List Char) → Option (List (String × Literal))
  | [] => some []
  | line :: rest =>
    if isComment line then assignments? rest
    else
      match assignment? line, assignments? rest with
      | some a, some as => some (a :: as)
      | _, _ => none

/-- The instructions for some assignments. -/
def stepsOf (offset : Nat) : List (String × Literal) → List CodeStep
  | [] =>
    [⟨offset, "LOAD_CONST", .constant .none, .loadConstant .none⟩,
     ⟨offset + 2, "RETURN_VALUE", .absent, .return⟩]
  | (name, l) :: rest =>
    ⟨offset, "LOAD_CONST", .constant l, .loadConstant l⟩ ::
      ⟨offset + 2, "STORE_NAME", .text name, .storeName name⟩ :: stepsOf (offset + 4) rest

/-- The code of a module that makes some assignments. -/
def moduleOf (as : List (String × Literal)) : CodeObject where
  qualname := "<module>"
  firstLine := 1
  optimized := false
  generator := false
  argCount := 0
  keywordOnlyCount := 0
  collectsArguments := false
  collectsKeywords := false
  variableNames := []
  cellNames := []
  freeNames := []
  steps := (⟨0, "RESUME", .number 0, .resume⟩ :: stepsOf 2 as).toArray
  handlers := []

/-- The code of a source text, if it is of this kind. -/
def compile? (text : String) : Option (Array CodeObject) :=
  (assignments? (splitChars '\n' text.toList)).map fun as => #[moduleOf as]

example : (assignments? [['x', ' ', '=', ' ', '1', '#'], [' ']]).isSome := by decide +kernel

end Source

end StateAtlas
