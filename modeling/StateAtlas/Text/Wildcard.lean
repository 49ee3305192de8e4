set_option autoImplicit false

/-!
# Wildcard patterns

In a pattern `*` stands for any text, `?` for any one character, `[...]` for one character of a
set and `[!...]` for one character outside it; every other character stands for itself. A set is
written with single characters and with ranges `a-z`; a range whose ends are in the wrong order is
left out, a closing bracket may stand first, and a bracket that is not closed stands for itself.

## Main definitions

* `StateAtlas.Wildcard.Piece` — one part of a pattern.
* `StateAtlas.Wildcard.ofText` — the parts of a pattern.
* `StateAtlas.Wildcard.agrees` — whether a pattern describes the whole of a text.

## Design

`agrees` works from the end of the pattern: for each part it computes at once, for every suffix of
the text, whether the rest of the pattern describes that suffix. The cost is the product of the
two lengths for every pattern.
-/

namespace StateAtlas

namespace Wildcard

/-- One part of a pattern. -/
inductive Piece where
  /-- Any text, the empty one too. -/
  | star
  /-- Any one character. -/
  | any
  /-- One given character. -/
  | one (c : Char)
  /-- One character inside, or if `negated` outside, the given ranges. -/
  | set (negated : Bool) (ranges : List (Char × Char))
  deriving DecidableEq, Repr

/-- The parts of the inside of a set between the hyphens that make ranges. A hyphen makes a range
only if at least `skip` characters stand before it in its part. -/
def chunks (skip : Nat) (current : List Char) : List Char → List (List Char)
  | [] => [current.reverse]
  | c :: cs =>
    if c == '-' && skip == 0 then current.reverse :: chunks 2 [] cs
    else chunks (skip - 1) (c :: current) cs

/-- An empty last part means that the last hyphen stood for itself. -/
def restoreHyphen : List (List Char) → List (List Char)
  | [a, []] => [a ++ ['-']]
  | a :: rest => a :: restoreHyphen rest
  | [] => []

/-- Leaves out the ranges between neighbouring parts whose ends are in the wrong order. -/
def dropEmptyRanges : List (List Char) → List (List Char)
  | [] => []
  | a :: rest =>
    match dropEmptyRanges rest, rest with
    | b :: bs, (first :: _) :: _ =>
      match a.getLast? with
      | some last => if first < last then (a.dropLast ++ b.drop 1) :: bs else a :: b :: bs
      | none => a :: b :: bs
    | bs, _ => a :: bs

/-- A character of a set; `true` marks a hyphen that makes a range. -/
def flatten : List (List Char) → List (Char × Bool)
  | [] => []
  | [a] => a.map (·, false)
  | a :: rest => a.map (·, false) ++ ('-', true) :: flatten rest

/-- The ranges of a set; a single character is a range of its own. -/
def ranges : List (Char × Bool) → List (Char × Char)
  | (a, _) :: ('-', true) :: (b, _) :: rest => (a, b) :: ranges rest
  | (a, _) :: rest => (a, a) :: ranges rest
  | [] => []

/-- The part that a set with the given inside stands for. -/
def setOf (inside : List Char) : Piece :=
  let skip := if inside.head? == some '!' then 2 else 1
  let parts :=
    if inside.contains '-' then dropEmptyRanges (restoreHyphen (chunks skip [] inside))
    else [inside]
  match flatten parts with
  | [] => .set false []
  | [('!', _)] => .any
  | ('!', _) :: rest => .set true (ranges rest)
  | all => .set false (ranges all)

/-- The inside of a set and what follows its closing bracket, if it is closed. The first character
after the opening bracket, or after `[!`, does not close it. -/
def closing? (cs : List Char) : Option (List Char × List Char) :=
  let (mark, body) := if cs.head? == some '!' then (['!'], cs.drop 1) else ([], cs)
  let (first, body) := if body.head? == some ']' then ([']'], body.drop 1) else ([], body)
  match body.dropWhile (· != ']') with
  | [] => none
  | _ :: after => some (mark ++ first ++ body.takeWhile (· != ']'), after)

/-- The parts of a pattern; `fuel` is at least its length. -/
def pieces (fuel : Nat) (cs : List Char) : List Piece :=
  match fuel, cs with
  | 0, _ => []
  | _, [] => []
  | fuel + 1, c :: cs =>
    if c == '*' then .star :: pieces fuel cs
    else if c == '?' then .any :: pieces fuel cs
    else if c == '[' then
      match closing? cs with
      | some (inside, after) => setOf inside :: pieces fuel after
      | none => .one '[' :: pieces fuel cs
    else .one c :: pieces fuel cs

/-- The parts of a pattern. -/
def ofText (pattern : String) : List Piece :=
  pieces pattern.length pattern.toList

/-- Whether a part other than `star` describes a character. -/
def Piece.accepts : Piece → Char → Bool
  | .star, _ => false
  | .any, _ => true
  | .one d, c => c == d
  | .set negated rs, c => (rs.any fun (a, b) => a ≤ c && c ≤ b) != negated

/-- Whether a flag or one after it is set, for every position. -/
def laterAny : List Bool → List Bool
  | [] => []
  | b :: bs =>
    let rest := laterAny bs
    (b || rest.head?.getD false) :: rest

/-- For every suffix of the text, longest first, whether the parts describe it. -/
def suffixes (ps : List Piece) (cs : List Char) : List Bool :=
  match ps with
  | [] => cs.map (fun _ => false) ++ [true]
  | .star :: ps => laterAny (suffixes ps cs)
  | p :: ps => List.zipWith (fun c later => p.accepts c && later) cs (suffixes ps cs).tail ++ [false]

/-- Whether a pattern describes the whole of a text. -/
def agrees (pattern text : String) : Bool :=
  (suffixes (ofText pattern) text.toList).head?.getD false

example : agrees "m.*[a-c]?" "m.f.bx" = true := by decide +kernel
example : agrees "[!a]" "a" = false := by decide +kernel
example : agrees "[z-a]" "b" = false := by decide +kernel
example : agrees "[a" "[a" = true := by decide +kernel

end Wildcard

end StateAtlas
