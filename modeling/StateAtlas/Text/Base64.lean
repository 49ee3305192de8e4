set_option autoImplicit false

/-!
# Bytes in base 64

Four characters stand for three bytes; other characters are passed over. Equals signs fill up the
last group, and what follows a full group of them is not read.

## Main definitions

* `StateAtlas.Base64.decode?` — the bytes that a text stands for.
-/

namespace StateAtlas

namespace Base64

/-- The value of a character, if it stands for six bits. -/
def sextet? (c : Char) : Option Nat :=
  if 'A' ≤ c && c ≤ 'Z' then some (c.toNat - 65)
  else if 'a' ≤ c && c ≤ 'z' then some (c.toNat - 71)
  else if '0' ≤ c && c ≤ '9' then some (c.toNat + 4)
  else if c == '+' then some 62
  else if c == '/' then some 63
  else none

/-- The bytes of the rest of a text. `held` are the bits left over from the characters of the
current group, `count` is the number of these characters, and `pads` the number of equals signs
that came last. -/
def decodeFrom (held count pads : Nat) : List Char → Option (List UInt8)
  | [] => if count == 0 then some [] else none
  | c :: cs =>
    if c == '=' then
      if 2 ≤ count && 4 ≤ count + pads + 1 then some []
      else decodeFrom held count (if 2 ≤ count then pads + 1 else pads) cs
    else
      match sextet? c with
      | none => decodeFrom held count pads cs
      | some n =>
        match count with
        | 0 => decodeFrom n 1 0 cs
        | 1 => (decodeFrom (n % 16) 2 0 cs).map ((held * 4 + n / 16).toUInt8 :: ·)
        | 2 => (decodeFrom (n % 4) 3 0 cs).map ((held * 16 + n / 4).toUInt8 :: ·)
        | _ => (decodeFrom 0 0 0 cs).map ((held * 64 + n).toUInt8 :: ·)

/-- The bytes that a text stands for. -/
def decode? (s : String) : Option (List UInt8) := decodeFrom 0 0 0 s.toList

example : decode? "aGk=" = some [104, 105] := by decide +kernel
example : decode? "aGk" = none := by decide +kernel

end Base64

end StateAtlas
