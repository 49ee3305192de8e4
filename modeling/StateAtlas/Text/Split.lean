set_option autoImplicit false

/-!
# Cutting text at a character

## Main definitions

* `StateAtlas.splitChars`, `StateAtlas.splitText` — the pieces between the occurrences of a
  character; one more than there are occurrences.
* `StateAtlas.cutFirst?`, `StateAtlas.cutLast?` — the two sides of the first or last occurrence.
-/

namespace StateAtlas

/-- The pieces between the occurrences of a character. -/
def splitChars (d : Char) : List Char → List (List Char)
  | [] => [[]]
  | c :: cs =>
    if c == d then [] :: splitChars d cs
    else
      match splitChars d cs with
      | [] => [[c]]
      | p :: ps => (c :: p) :: ps

theorem splitChars_ne_nil (d : Char) (cs : List Char) : splitChars d cs ≠ [] := by
  cases cs with
  | nil => simp [splitChars]
  | cons c cs =>
    rw [splitChars]
    split
    · simp
    · split <;> simp

/-- The pieces of a text between the occurrences of a character. -/
def splitText (d : Char) (s : String) : List String :=
  (splitChars d s.toList).map String.ofList

/-- What stands before and after the first occurrence of a character. -/
def cutFirst? (d : Char) (cs : List Char) : Option (List Char × List Char) :=
  match cs.dropWhile (· != d) with
  | [] => none
  | _ :: after => some (cs.takeWhile (· != d), after)

/-- What stands before and after the last occurrence of a character. -/
def cutLast? (d : Char) (cs : List Char) : Option (List Char × List Char) :=
  (cutFirst? d cs.reverse).map fun (after, before) => (before.reverse, after.reverse)

/-- The last of the pieces of a text between the occurrences of a character. -/
def lastPiece (d : Char) (s : String) : String :=
  match cutLast? d s.toList with
  | some (_, after) => String.ofList after
  | none => s

example : splitText ';' "a;;b" = ["a", "", "b"] := by decide +kernel
example : lastPiece '.' "a.b.c" = "c" := by decide +kernel

end StateAtlas
