import ClassLang.Text.Quoted
import ClassLang.Yaml.Plain

/-!
# Quoted scalars

Between single quotes every character stands for itself and a quote is written
twice.  Between double quotes a backslash starts an escape: one letter for the
common control characters, or a hexadecimal code of two, four or eight digits.
A line may be broken in both styles, and between double quotes a backslash
before the line break keeps the lines together without a space.
-/

namespace ClassLang.Yaml

/-! ## Escapes -/

/-- The letter that stands for a character after a backslash. -/
def escapeLetters : List (Char × Char) :=
  [('\x00', '0'), ('\x07', 'a'), ('\x08', 'b'), ('\t', 't'), ('\n', 'n'), ('\x0b', 'v'),
   ('\x0c', 'f'), ('\r', 'r'), ('\x1b', 'e'), ('"', '"'), ('\\', '\\'), ('\u0085', 'N'),
   ('\u00a0', '_'), ('\u2028', 'L'), ('\u2029', 'P')]

/-- Escapes that are read but never written. -/
def readOnlyLetters : List (Char × Char) :=
  [('\t', '\t'), (' ', ' '), ('\'', '\'')]

def escapedChar? (letter : Char) : Option Char :=
  ((escapeLetters ++ readOnlyLetters).find? fun pair => pair.2 == letter).map (·.1)

/-- The number of hexadecimal digits that a letter announces. -/
def codeWidth? : Char → Option Nat
  | 'x' => some 2
  | 'u' => some 4
  | 'U' => some 8
  | _ => none

/-- The character whose code has the given digits. -/
def charOfDigits (width : Nat) (digits : List Char) : Except TextProblem Char :=
  match digits.mapM Text.hexValue? with
  | none => .error .expectedHexDigits
  | some values =>
    let code := Text.ofDigits 16 values
    if values.length < width then .error .expectedHexDigits
    else if code.isValidChar then .ok (Char.ofNat code)
    else .error .invalidCode

def upperHex (width code : Nat) : List Char :=
  (Text.hexDigits width code).map Char.toUpper

def escaped (c : Char) : List Char :=
  match escapeLetters.lookup c with
  | some letter => ['\\', letter]
  | none =>
    let code := c.toNat
    if code ≤ 0xFF then '\\' :: 'x' :: upperHex 2 code
    else if code ≤ 0xFFFF then '\\' :: 'u' :: upperHex 4 code
    else '\\' :: 'U' :: upperHex 8 code

/-! ## Reading -/

structure QuotedScalar where
  text : List Char
  cursor : Cursor

/-- The scalar with more text in front. -/
def QuotedScalar.after (front : List Char) (scalar : QuotedScalar) : QuotedScalar :=
  { scalar with text := front ++ scalar.text }

/-- Reads on after a gap, up to the closing quote. -/
def readSingleQuoted (gap : Gap) (place : Place) (text : List Char) :
    Except Fault QuotedScalar := do
  let place ← place.look gap.lookAhead text
  match text with
  | '\r' :: '\n' :: rest =>
    let place ← place.look 2 text
    readSingleQuoted (gap.addBreak '\n') (place.nextLine 2) rest
  | '\'' :: '\'' :: rest =>
    let place ← gap.lookAtWord place text
    let scalar ← readSingleQuoted .none (place.advance 2) rest
    return scalar.after (gap.text ++ ['\''])
  | '\'' :: rest =>
    let place ← gap.lookAtWord place text
    return ⟨gap.text, ⟨rest, place.next⟩⟩
  | c :: rest =>
    if isLineBreak c then
      let place ← place.look 2 text
      readSingleQuoted (gap.addBreak c) (place.nextLine 1) rest
    else if isBlank c then readSingleQuoted (gap.addBlank c) place.next rest
    else
      let place ← gap.lookAtWord place text
      if place.column == 0 && startsMark text then throw (.text place.line .unexpectedMark)
      let scalar ← readSingleQuoted .none place.next rest
      return scalar.after (gap.text ++ [c])
  | [] =>
    let place ← gap.lookAtWord place text
    throw (.text place.line .unexpectedEnd)

/-- Reads on after a gap, up to the closing quote. -/
def readDoubleQuoted (gap : Gap) (place : Place) (text : List Char) :
    Except Fault QuotedScalar := do
  let place ← place.look gap.lookAhead text
  match text with
  | '\r' :: '\n' :: rest =>
    let place ← place.look 2 text
    readDoubleQuoted (gap.addBreak '\n') (place.nextLine 2) rest
  | '"' :: rest =>
    let place ← if gap.isFresh then pure place else gap.lookAtWord place text
    return ⟨gap.text, ⟨rest, place.next⟩⟩
  | '\\' :: '\r' :: '\n' :: rest =>
    let place ← gap.lookAtWord place text
    let place ← place.look 3 text
    let scalar ← readDoubleQuoted .escaped (place.nextLine 3) rest
    return scalar.after gap.text
  | '\\' :: letter :: rest =>
    let place ← gap.lookAtWord place text
    if isLineBreak letter then
      let place ← place.look 3 text
      let scalar ← readDoubleQuoted .escaped (place.nextLine 2) rest
      return scalar.after gap.text
    match codeWidth? letter, escapedChar? letter with
    | some width, _ =>
      let place ← (place.advance 2).look width rest
      let c ← (charOfDigits width (rest.take width)).mapError (Fault.text place.line)
      let scalar ← readDoubleQuoted .none (place.advance width) (rest.drop width)
      return scalar.after (gap.text ++ [c])
    | none, some c =>
      let scalar ← readDoubleQuoted .none (place.advance 2) rest
      return scalar.after (gap.text ++ [c])
    | none, none => throw (.text place.line .unknownEscape)
  | c :: rest =>
    if isLineBreak c then
      let place ← place.look 2 text
      readDoubleQuoted (gap.addBreak c) (place.nextLine 1) rest
    else if isBlank c then readDoubleQuoted (gap.addBlank c) place.next rest
    else
      let place ← gap.lookAtWord place text
      if c == '\\' then throw (.text place.line .unknownEscape)
      if place.column == 0 && startsMark text then throw (.text place.line .unexpectedMark)
      let scalar ← readDoubleQuoted .none place.next rest
      return scalar.after (gap.text ++ [c])
  | [] =>
    let place ← gap.lookAtWord place text
    throw (.text place.line .unexpectedEnd)
termination_by text.length
decreasing_by
  all_goals simp only [List.length_drop, List.length_cons]
  all_goals omega

/-! ## Writing -/

/-- Writes on from a column, without the closing quote, knowing whether a space
or a line break comes before.  A line that a separator starts is indented. -/
def writeSingleQuoted (column : Nat) (afterSpace afterBreak : Bool) : List Char → List Char
  | [] => []
  | c :: rest =>
    if c == ' ' then
      if breaksAt column afterSpace rest then
        '\n' :: indentation ++ writeSingleQuoted scalarIndent true false rest
      else ' ' :: writeSingleQuoted (column + 1) true false rest
    else if isLineBreak c then c :: writeSingleQuoted 0 false true rest
    else
      let written := (if afterBreak then indentation else [])
        ++ if c == '\'' then ['\'', '\''] else [c]
      written ++ writeSingleQuoted (column + written.length) false false rest

/-- Whether a text reads back as it is between single quotes. -/
def canBeSingleQuoted (text : List Char) : Bool :=
  text.all isDirect && !hasPair (· == ' ') isLineBreak text && !hasPair isLineBreak (· == ' ') text

/-- Whether a character is written as it is between double quotes. -/
def isUnescaped (c : Char) : Bool :=
  isDirect c && !isLineBreak c && c != '"' && c != '\\'

/-- Writes on from a column, without the closing quote, knowing whether a space
comes before.  A space after a line break is escaped. -/
def writeDoubleQuoted (column : Nat) (afterSpace : Bool) : List Char → List Char
  | [] => []
  | c :: rest =>
    if c == ' ' then
      if lineWidth < column && !afterSpace && !rest.isEmpty then
        let start := indentation ++ if rest.head? == some ' ' then ['\\'] else []
        '\n' :: start ++ writeDoubleQuoted start.length true rest
      else ' ' :: writeDoubleQuoted (column + 1) true rest
    else
      let written := if isUnescaped c then [c] else escaped c
      written ++ writeDoubleQuoted (column + written.length) false rest

/-- A text between double quotes that starts at a column.  If the text starts
with a byte order mark, all of it is escaped. -/
def doubleQuoted (column : Nat) (text : List Char) : List Char :=
  let body :=
    if text.head? == some '\ufeff' then text.flatMap escaped
    else writeDoubleQuoted (column + 1) false text
  '"' :: body ++ ['"']

def singleQuoted (column : Nat) (text : List Char) : List Char :=
  '\'' :: writeSingleQuoted (column + 1) false false text ++ ['\'']

end ClassLang.Yaml
