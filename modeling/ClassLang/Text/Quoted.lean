import ClassLang.Text.Printable

/-!
# Quoted text

Messages show a character in single quotes and a text in double quotes.  The
quote in use and the backslash are escaped, printable characters stand for
themselves, seven control characters have a letter of their own, and the rest
is written in hexadecimal: two digits in the ASCII range, four up to U+FFFF and
eight above.
-/

namespace ClassLang.Text

/-- The last `width` hexadecimal digits of a number, with zeros in front. -/
def hexDigits : (width n : Nat) → List Char
  | 0, _ => []
  | width + 1, n => hexDigits width (n / 16) ++ [Nat.digitChar (n % 16)]

def controlLetter? : Char → Option Char
  | '\x07' => some 'a'
  | '\x08' => some 'b'
  | '\x0c' => some 'f'
  | '\n' => some 'n'
  | '\r' => some 'r'
  | '\t' => some 't'
  | '\x0b' => some 'v'
  | _ => none

def hexEscape (c : Char) : List Char :=
  let code := c.toNat
  if code < 0x80 then '\\' :: 'x' :: hexDigits 2 code
  else if code < 0x10000 then '\\' :: 'u' :: hexDigits 4 code
  else '\\' :: 'U' :: hexDigits 8 code

/-- One character inside quotes of the given kind. -/
def escapeChar (quoteMark c : Char) : List Char :=
  if c == quoteMark || c == '\\' then ['\\', c]
  else if isPrintable c then [c]
  else match controlLetter? c with
    | some letter => ['\\', letter]
    | none => hexEscape c

def quoteWith (quoteMark : Char) (text : List Char) : String :=
  String.ofList (quoteMark :: text.flatMap (escapeChar quoteMark) ++ [quoteMark])

def quote (text : String) : String :=
  quoteWith '"' text.toList

def quoteChar (c : Char) : String :=
  quoteWith '\'' [c]

end ClassLang.Text
