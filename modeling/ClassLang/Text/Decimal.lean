import ClassLang.Text.Digit

/-!
# Decimal integers

Integers are written with a minus sign where needed and no leading zero.  They
are read more freely: one sign of either kind, then any number of ASCII digits.
What a reader accepts is bounded by the width of the word it fills, 64 bits
with a sign for integer literals and 64 bits without one for the parts of a
version.
-/

namespace ClassLang.Text

/-- The shortest decimal form of an integer. -/
def decimal : Int → String
  | .ofNat n => String.ofList (Nat.toDigits 10 n)
  | .negSucc n => "-" ++ String.ofList (Nat.toDigits 10 (n + 1))

/-- The value of a non-empty run of ASCII digits. -/
def readNat? (digits : List Char) : Option Nat :=
  if digits.isEmpty || !digits.all isAsciiDigit then none
  else some (Nat.ofDigitChars 10 digits 0)

/-- The value of an optional sign and a non-empty run of ASCII digits. -/
def readInt? : List Char → Option Int
  | '-' :: digits => (readNat? digits).map fun n => -(n : Int)
  | '+' :: digits => (readNat? digits).map fun n => (n : Int)
  | digits => (readNat? digits).map fun n => (n : Int)

/-- Two to the power of 63.  A signed 64-bit word holds the integers from minus
this number up to, but not including, this number. -/
def signedLimit : Nat := 0x8000000000000000

/-- An integer that a signed 64-bit word can hold. -/
def readInt64? (text : String) : Option Int :=
  (readInt? text.toList).filter fun n => -signedLimit ≤ n && n < signedLimit

end ClassLang.Text
