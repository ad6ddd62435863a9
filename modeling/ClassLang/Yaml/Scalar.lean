import ClassLang.Text.Base64
import ClassLang.Text.Decimal
import ClassLang.Text.Digit

/-!
# What a plain scalar means

In YAML an unquoted scalar is not always a text: `~` is nothing, `yes` is a
truth value, `012` and `1e3` are numbers and `2001-12-14` is a date.  A text
that would be taken for one of these has to be quoted when it is written.  The
rules are those of version 1.1 of the language, with the number forms and the
ranges of 64-bit words.
-/

namespace ClassLang.Yaml

inductive ScalarType where
  | null
  | bool
  | int
  | float
  | timestamp
  | text
  deriving DecidableEq

structure Scalar where
  text : String
  /-- Whether the scalar is written without quotes. -/
  isPlain : Bool
  deriving DecidableEq

/-- The scalar that is nowhere written. -/
def Scalar.nothing : Scalar := ⟨"", true⟩

def ScalarType.name : ScalarType → String
  | .null => "null"
  | .bool => "bool"
  | .int => "int"
  | .float => "float"
  | .timestamp => "timestamp"
  | .text => "str"

/-- The tag as it is shown in messages. -/
def ScalarType.tag (type : ScalarType) : String :=
  "!!" ++ type.name

/-- The words that stand for a value, other than numbers. -/
def wordTypes : List (String × ScalarType) :=
  let each (type : ScalarType) (words : List String) := words.map (·, type)
  each .null ["", "~", "null", "Null", "NULL"]
    ++ each .bool
      ["y", "Y", "yes", "Yes", "YES", "true", "True", "TRUE", "on", "On", "ON",
       "n", "N", "no", "No", "NO", "false", "False", "FALSE", "off", "Off", "OFF"]
    ++ each .float
      [".nan", ".NaN", ".NAN", ".inf", ".Inf", ".INF", "+.inf", "+.Inf", "+.INF",
       "-.inf", "-.Inf", "-.INF"]

/-! ## Integers -/

/-- An unsigned integer: a prefix for base 2, 8 or 16, a zero in front for base
8, or base 10. -/
def unsignedValue? : List Char → Option Nat
  | '0' :: 'x' :: digits | '0' :: 'X' :: digits => Text.digitsValue? 16 digits
  | '0' :: 'b' :: digits | '0' :: 'B' :: digits => Text.digitsValue? 2 digits
  | '0' :: 'o' :: digits | '0' :: 'O' :: digits => Text.digitsValue? 8 digits
  | '0' :: c :: digits => Text.digitsValue? 8 (c :: digits)
  | digits => Text.digitsValue? 10 digits

/-- Whether a number with the given sign fits in 64 bits.  The limit is for a
number without a sign, which may use the whole range of an unsigned word. -/
def fitsWord (limit : Nat) (sign : Option Char) (value : Nat) : Bool :=
  match sign with
  | some '-' => value ≤ Text.signedLimit
  | some _ => value < Text.signedLimit
  | none => value < limit

/-- The sign in front of a number, and the rest. -/
def splitSign : List Char → Option Char × List Char
  | '-' :: rest => (some '-', rest)
  | '+' :: rest => (some '+', rest)
  | rest => (none, rest)

def isWord (limit : Nat) (value? : List Char → Option Nat) (text : List Char) : Bool :=
  let (sign, digits) := splitSign text
  match value? digits with
  | some value => fitsWord limit sign value
  | none => false

/-- A number in base 2 may have its sign after the prefix. -/
def isBinary (limit : Nat) : List Char → Bool
  | '0' :: 'b' :: rest => isWord limit (Text.digitsValue? 2) rest
  | _ => false

def isIntBelow (limit : Nat) (text : List Char) : Bool :=
  isWord limit unsignedValue? text || isBinary limit text

def isInt (text : List Char) : Bool :=
  isIntBelow UInt64.size text

/-- Whether a number fits in a signed word. -/
def isSignedInt (text : List Char) : Bool :=
  isIntBelow Text.signedLimit text

/-! ## Floating-point numbers -/

/-- A decimal number taken apart: `digits` with the point `places` from its
right end, times ten to the power of `exponent`. -/
structure DecimalParts where
  digits : List Char
  places : Nat
  exponent : Int

def exponent? : List Char → Option Int
  | [] => some 0
  | mark :: rest =>
    if mark == 'e' || mark == 'E' then
      let (sign, digits) := splitSign rest
      (Text.digitsValue? 10 digits).map fun value =>
        if sign == some '-' then -(value : Int) else value
    else none

/-- A decimal number without its sign.  There is a digit on at least one side
of the point. -/
def decimalParts? (text : List Char) : Option DecimalParts := do
  let whole := text.takeWhile Text.isAsciiDigit
  let rest := text.dropWhile Text.isAsciiDigit
  let (fraction, rest) :=
    match rest with
    | '.' :: rest => (rest.takeWhile Text.isAsciiDigit, rest.dropWhile Text.isAsciiDigit)
    | rest => ([], rest)
  let exponent ← exponent? rest
  if whole.isEmpty && fraction.isEmpty then none
  else some ⟨whole ++ fraction, fraction.length, exponent⟩

/-- Numbers from here on round to more than the greatest double. -/
def doubleLimit : Nat := ((1 <<< 54) - 1) <<< 970

/-- Whether the number rounds to a finite double.  The number of its digits
decides all but the close cases. -/
def DecimalParts.isFinite (parts : DecimalParts) : Bool :=
  let value := Nat.ofDigitChars 10 parts.digits 0
  let exponent := parts.exponent - parts.places
  let length := (parts.digits.dropWhile (· == '0')).length + exponent
  if value == 0 || length < 308 then true
  else if 310 < length then false
  else if exponent < 0 then value < doubleLimit * Nat.pow 10 (-exponent).toNat
  else value * Nat.pow 10 exponent.toNat < doubleLimit

/-- Whether every low line stands between two digits. -/
def separatesDigits (afterDigit : Bool) : List Char → Bool
  | [] => true
  | c :: rest =>
    if c == '_' then
      afterDigit && rest.head?.any Text.isAsciiDigit && separatesDigits false rest
    else separatesDigits (Text.isAsciiDigit c) rest

def isFloat (text : List Char) : Bool :=
  match decimalParts? (splitSign text).2 with
  | some parts => parts.isFinite
  | none => false

/-- Numbers in base 60, such as `12:30`, are no longer read as numbers but are
still quoted. -/
def isSexagesimal (text : List Char) : Bool :=
  let isDigitOrLine (c : Char) : Bool := Text.isAsciiDigit c || c == '_'
  let isGroup (part : List Char) : Bool :=
    match part with
    | [c] => Text.isAsciiDigit c
    | [c, d] => '0' ≤ c && c ≤ '5' && Text.isAsciiDigit d
    | _ => false
  let number := (splitSign text).2
  let whole := number.takeWhile (· != '.')
  let fraction := (number.dropWhile (· != '.')).drop 1
  match whole.splitOn ':' with
  | (c :: digits) :: group :: groups =>
    Text.isAsciiDigit c && digits.all isDigitOrLine && (group :: groups).all isGroup
      && fraction.all isDigitOrLine
  | _ => false

/-! ## Dates and times -/

/-- One or two digits at the front, as a number, and the rest. -/
def shortNumber? : List Char → Option (Nat × List Char)
  | c :: d :: rest =>
    if Text.isAsciiDigit c && Text.isAsciiDigit d then
      some (Nat.ofDigitChars 10 [c, d] 0, rest)
    else if Text.isAsciiDigit c then some (Nat.ofDigitChars 10 [c] 0, d :: rest)
    else none
  | [c] => if Text.isAsciiDigit c then some (Nat.ofDigitChars 10 [c] 0, []) else none
  | [] => none

def expectChar? (wanted : Char) : List Char → Option (List Char)
  | c :: rest => if c == wanted then some rest else none
  | [] => none

def isLeapYear (year : Nat) : Bool :=
  year % 4 == 0 && (year % 100 != 0 || year % 400 == 0)

def daysIn (year month : Nat) : Nat :=
  if month == 2 then (if isLeapYear year then 29 else 28)
  else if month == 4 || month == 6 || month == 9 || month == 11 then 30
  else 31

/-- A date at the front: a year of four digits, a month and a day. -/
def date? (text : List Char) : Option (List Char) := do
  let year := text.takeWhile Text.isAsciiDigit
  let rest ← expectChar? '-' (text.drop year.length)
  let (month, rest) ← shortNumber? rest
  let rest ← expectChar? '-' rest
  let (day, rest) ← shortNumber? rest
  let yearNumber := Nat.ofDigitChars 10 year 0
  if year.length == 4 && 1 ≤ month && month ≤ 12 && 1 ≤ day && day ≤ daysIn yearNumber month then
    some rest
  else none

/-- A fraction of a second, if there is one. -/
def skipFraction : List Char → List Char
  | mark :: c :: rest =>
    if (mark == '.' || mark == ',') && Text.isAsciiDigit c then
      rest.dropWhile Text.isAsciiDigit
    else mark :: c :: rest
  | rest => rest

/-- A time of day at the front. -/
def time? (text : List Char) : Option (List Char) := do
  let (hour, rest) ← shortNumber? text
  let rest ← expectChar? ':' rest
  let (minute, rest) ← shortNumber? rest
  let rest ← expectChar? ':' rest
  let (second, rest) ← shortNumber? rest
  if hour < 24 && minute < 60 && second < 60 then some (skipFraction rest) else none

/-- A time zone: `Z`, or a sign with hours and minutes. -/
def isZone : List Char → Bool
  | ['Z'] => true
  | [sign, a, b, ':', c, d] =>
    (sign == '+' || sign == '-') && [a, b, c, d].all Text.isAsciiDigit
      && Nat.ofDigitChars 10 [a, b] 0 ≤ 24 && Nat.ofDigitChars 10 [c, d] 0 ≤ 60
  | _ => false

/-- A date alone, a date and a time with spaces between them, or a date and a
time with a `T` between them and a time zone. -/
def isTimestamp (text : List Char) : Bool :=
  match date? text with
  | none => false
  | some [] => true
  | some (mark :: rest) =>
    if mark == ' ' then time? (rest.dropWhile (· == ' ')) == some []
    else (mark == 'T' || mark == 't') && (time? rest).any isZone

/-! ## Deciding -/

/-- What a plain scalar stands for, dates and times apart.  Low lines in numbers
are ignored; a number that starts with a point may have them only between
digits. -/
def untimedType (text : String) : ScalarType :=
  let chars := text.toList
  let plain := chars.filter (· != '_')
  match wordTypes.lookup text with
  | some type => type
  | none =>
    match chars.head? with
    | none => .text
    | some '.' => if separatesDigits false chars && isFloat plain then .float else .text
    | some c =>
      if !(Text.isAsciiDigit c || c == '+' || c == '-') then .text
      else if isInt plain then .int
      else if isFloat plain then .float
      else .text

/-- What a plain scalar stands for. -/
def scalarType (text : String) : ScalarType :=
  if isTimestamp text.toList then .timestamp else untimedType text

/-- Whether a text keeps its meaning when it is written without quotes. -/
def isPlainText (text : String) : Bool :=
  scalarType text == .text && !isSexagesimal text.toList

/-! ## Tags -/

/-- What the tags of the language itself start with. -/
def coreTag : String := "tag:yaml.org,2002:"

/-- A tag as it is shown in messages. -/
def shortTag (tag : String) : String :=
  if coreTag.toList.isPrefixOf tag.toList then
    "!!" ++ String.ofList (tag.toList.drop coreTag.length)
  else tag

/-- The kind of scalar that a tag asks for, if the tag is known. -/
def taggedType? (tag : String) : Option ScalarType :=
  [.null, .bool, .int, .float, .timestamp, .text].find? fun type => tag == coreTag ++ type.name

/-- The tag of a text whose bytes are written in base 64. -/
def binaryTag : String := coreTag ++ "binary"

/-- What is wrong with a scalar that has a tag. -/
inductive TagProblem where
  | conflict (text : String) (found wanted : ScalarType)
  | badBinary
  deriving DecidableEq

def TagProblem.message : TagProblem → String
  | .conflict text found wanted =>
    "cannot decode " ++ found.tag ++ " \x60" ++ text ++ "\x60 as a " ++ wanted.tag
  | .badBinary => "!!binary value contains invalid base64 data"

/-- Whether a scalar of one type may have the tag of another.  Integers may be
tagged as floating-point numbers unless they need an unsigned word. -/
def mayBeTagged (text : String) (found wanted : ScalarType) : Bool :=
  found == wanted
    || (found == .int && wanted == .float && isSignedInt (text.toList.filter (· != '_')))

/-- What a scalar with a tag stands for, where no tag is an empty one.  A tag that
is not known leaves a text. -/
def Scalar.type (scalar : Scalar) (tag : String) : Except TagProblem ScalarType :=
  if tag.isEmpty then .ok (if scalar.isPlain then scalarType scalar.text else .text)
  else
    match taggedType? tag with
    | none | some .text => .ok .text
    | some wanted =>
      let found := if wanted == .timestamp then scalarType scalar.text else untimedType scalar.text
      if mayBeTagged scalar.text found wanted then .ok wanted
      else .error (.conflict scalar.text found wanted)

/-- The text that a scalar with a tag stands for, if it is a text. -/
def Scalar.content (scalar : Scalar) (tag : String) : Except TagProblem String :=
  if tag == binaryTag then
    match Text.Base64.decode? scalar.text with
    | some text => .ok text
    | none => .error .badBinary
  else .ok scalar.text

end ClassLang.Yaml
