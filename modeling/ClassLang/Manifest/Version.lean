import ClassLang.Text.Decimal
import ClassLang.Text.Quoted

/-!
# Versions

A version is up to three numbers with dots between them, then perhaps a
prerelease after a hyphen and metadata after a plus sign, both lists of
identifiers with dots between them.  A `v` may stand in front, numbers may have
leading zeros, and missing numbers are zero.  Written out, a version has three
plain numbers and no `v`.
-/

namespace ClassLang

structure Version where
  major : Nat
  minor : Nat
  patch : Nat
  prerelease : String
  metadata : String
  deriving DecidableEq

inductive VersionError where
  | malformed
  /-- A number that does not fit in 64 bits. -/
  | outOfRange (digits : String)
  /-- A prerelease identifier is a number with a zero in front. -/
  | leadingZero
  deriving DecidableEq

def VersionError.message : VersionError → String
  | .malformed => "Invalid Semantic Version"
  | .outOfRange digits =>
    "Error parsing version segment: strconv.ParseUint: parsing " ++ Text.quote digits
      ++ ": value out of range"
  | .leadingZero => "Version segment starts with 0"

namespace Version

def isIdentifierChar (c : Char) : Bool :=
  c.isAlphanum || c == '-'

/-- One or more identifiers with dots between them. -/
def areIdentifiers (text : List Char) : Bool :=
  (text.splitOn '.').all fun part => !part.isEmpty && part.all isIdentifierChar

/-- The three parts of a version as they are written, with empty texts for a
prerelease or metadata that is not there. -/
structure Parts where
  numbers : List (List Char)
  prerelease : List Char
  metadata : List Char

/-- The metadata, after all else. -/
def metadata? : List Char → Option (List Char)
  | [] => some []
  | '+' :: metadata => if areIdentifiers metadata then some metadata else none
  | _ => none

/-- The prerelease and the metadata, after the numbers. -/
def suffixes? : List Char → Option (List Char × List Char)
  | '-' :: rest => do
    let prerelease := rest.takeWhile (· != '+')
    let metadata ← metadata? (rest.dropWhile (· != '+'))
    if areIdentifiers prerelease then some (prerelease, metadata) else none
  | rest => (metadata? rest).map ([], ·)

/-- The parts of a text that has the form of a version. -/
def parts? (text : List Char) : Option Parts := do
  let text := if text.head? == some 'v' then text.tail else text
  let isNumbersChar (c : Char) : Bool := Text.isAsciiDigit c || c == '.'
  let numbers := (text.takeWhile isNumbersChar).splitOn '.'
  let (prerelease, metadata) ← suffixes? (text.dropWhile isNumbersChar)
  if numbers.length ≤ 3 && numbers.all (fun digits => !digits.isEmpty) then
    some ⟨numbers, prerelease, metadata⟩
  else none

/-- A number of a version; one that is not there is zero. -/
def number (digits : Option (List Char)) : Except VersionError Nat :=
  match digits with
  | none => .ok 0
  | some digits =>
    let value := Nat.ofDigitChars 10 digits 0
    if value < UInt64.size then .ok value else .error (.outOfRange (String.ofList digits))

/-- Whether an identifier is a number of two or more digits that starts with
zero. -/
def hasLeadingZero (part : List Char) : Bool :=
  part.all Text.isAsciiDigit && 1 < part.length && part.head? == some '0'

def parse (text : String) : Except VersionError Version :=
  match parts? text.toList with
  | none => .error .malformed
  | some parts => do
    let major ← number parts.numbers[0]?
    let minor ← number parts.numbers[1]?
    let patch ← number parts.numbers[2]?
    if (parts.prerelease.splitOn '.').any hasLeadingZero then throw .leadingZero
    return ⟨major, minor, patch, String.ofList parts.prerelease, String.ofList parts.metadata⟩

def text (version : Version) : String :=
  Text.decimal version.major ++ "." ++ Text.decimal version.minor ++ "."
    ++ Text.decimal version.patch
    ++ (if version.prerelease.isEmpty then "" else "-" ++ version.prerelease)
    ++ (if version.metadata.isEmpty then "" else "+" ++ version.metadata)

end Version

end ClassLang
