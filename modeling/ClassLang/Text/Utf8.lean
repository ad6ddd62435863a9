/-!
# Bytes as text

Files hold bytes.  Bytes that form UTF-8 are read as the text they encode.  In
all others, each byte that starts no well-formed sequence is read as the
replacement character U+FFFD, and reading goes on with the next byte.
-/

namespace ClassLang.Text

def replacement : Char := '�'

/-- The character with the given number, or the replacement character for a
number that no character has. -/
def charOfCode (code : Int) : Char :=
  if 0 ≤ code ∧ code.toNat.isValidChar then Char.ofNat code.toNat else replacement

namespace Utf8

def isTail (byte : UInt8) : Bool :=
  0x80 ≤ byte && byte ≤ 0xBF

/-- The low six bits, which are all that a tail byte adds. -/
def tailBits (byte : UInt8) : Nat :=
  byte.toNat % 64

/-- A character of two bytes.  A lead byte below C2 could only write a
character that needs one byte. -/
def two? (lead tail : UInt8) : Option Char :=
  if 0xC2 ≤ lead && lead ≤ 0xDF && isTail tail then
    some (Char.ofNat (lead.toNat % 32 * 64 + tailBits tail))
  else none

/-- A character of three bytes, neither an overlong form nor a surrogate. -/
def three? (lead second third : UInt8) : Option Char :=
  let code := lead.toNat % 16 * 4096 + tailBits second * 64 + tailBits third
  if 0xE0 ≤ lead && lead ≤ 0xEF && isTail second && isTail third && 0x800 ≤ code
      && (code < 0xD800 || 0xDFFF < code) then
    some (Char.ofNat code)
  else none

/-- A character of four bytes, neither an overlong form nor above U+10FFFF. -/
def four? (lead second third fourth : UInt8) : Option Char :=
  let code := lead.toNat % 8 * 262144 + tailBits second * 4096 + tailBits third * 64
    + tailBits fourth
  if 0xF0 ≤ lead && lead ≤ 0xF4 && isTail second && isTail third && isTail fourth
      && 0x10000 ≤ code && code ≤ 0x10FFFF then
    some (Char.ofNat code)
  else none

/-- The well-formed sequence at the front, as its character and the bytes after
it. -/
def sequence? : List UInt8 → Option (Char × List UInt8)
  | [] => none
  | lead :: rest =>
    if lead < 0x80 then some (Char.ofNat lead.toNat, rest)
    else match rest with
      | [] => none
      | second :: rest =>
        match two? lead second with
        | some c => some (c, rest)
        | none =>
          match rest with
          | [] => none
          | third :: rest =>
            match three? lead second third with
            | some c => some (c, rest)
            | none =>
              match rest with
              | [] => none
              | fourth :: rest => (four? lead second third fourth).map (·, rest)

theorem length_of_sequence? {bytes rest : List UInt8} {c : Char}
    (heq : sequence? bytes = some (c, rest)) : rest.length < bytes.length := by
  unfold sequence? at heq
  repeat' split at heq
  all_goals
    simp only [Option.map_eq_some_iff, Option.some.injEq, Prod.mk.injEq, reduceCtorEq] at heq
  all_goals simp only [List.length_cons]
  all_goals grind

/-- The characters of any bytes, with a replacement for each byte that starts
no well-formed sequence. -/
def decodeBytes (bytes : List UInt8) : List Char :=
  match bytes with
  | [] => []
  | byte :: bytes =>
    match heq : sequence? (byte :: bytes) with
    | some (c, rest) =>
      have : rest.length ≤ bytes.length := Nat.le_of_lt_succ (length_of_sequence? heq)
      c :: decodeBytes rest
    | none => replacement :: decodeBytes bytes
termination_by bytes.length

end Utf8

/-- The text that bytes stand for. -/
def decode (bytes : ByteArray) : String :=
  match String.fromUTF8? bytes with
  | some text => text
  | none => String.ofList (Utf8.decodeBytes bytes.toList)

theorem fromUTF8?_toUTF8 (text : String) : String.fromUTF8? text.toUTF8 = some text := by
  rw [String.fromUTF8?, String.toUTF8_eq_toByteArray, dif_pos text.isValidUTF8]
  rfl

end ClassLang.Text
