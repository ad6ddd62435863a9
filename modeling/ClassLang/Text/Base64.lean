import ClassLang.Text.Utf8

/-!
# Bytes written as letters

In base 64 every four characters stand for three bytes.  If one or two bytes are
left over, `=` fills up the last four characters.  Line breaks are ignored, and
so are the bits that belong to no byte.
-/

namespace ClassLang.Text.Base64

/-- The six bits that a character stands for. -/
def bits? (c : Char) : Option Nat :=
  if 'A' ≤ c && c ≤ 'Z' then some (c.toNat - 'A'.toNat)
  else if 'a' ≤ c && c ≤ 'z' then some (c.toNat - 'a'.toNat + 26)
  else if '0' ≤ c && c ≤ '9' then some (c.toNat - '0'.toNat + 52)
  else if c == '+' then some 62
  else if c == '/' then some 63
  else none

/-- The three bytes of 24 bits. -/
def threeBytes (a b c d : Nat) : List UInt8 :=
  let bits := ((a * 64 + b) * 64 + c) * 64 + d
  [(bits / 65536).toUInt8, (bits / 256).toUInt8, bits.toUInt8]

def bytes? : List Char → Option (List UInt8)
  | [] => some []
  | [a, b, '=', '='] => do
    return (threeBytes (← bits? a) (← bits? b) 0 0).take 1
  | [a, b, c, '='] => do
    return (threeBytes (← bits? a) (← bits? b) (← bits? c) 0).take 2
  | a :: b :: c :: d :: rest => do
    let first := threeBytes (← bits? a) (← bits? b) (← bits? c) (← bits? d)
    return first ++ (← bytes? rest)
  | _ => none

/-- The text whose bytes are written, if they are written well. -/
def decode? (text : String) : Option String := do
  let bytes ← bytes? (text.toList.filter fun c => c != '\n' && c != '\r')
  return Text.decode ⟨bytes.toArray⟩

end ClassLang.Text.Base64
