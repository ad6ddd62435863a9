import ClassLang.Parser.Progress
import ClassLang.Text.Digit
import ClassLang.Text.Letter

/-!
# Symbols of a declaration file

A declaration file is a sequence of names and single characters.  Blanks and
comments separate them: a comment runs from two slashes to the end of the line,
or from a slash and a star to a star and a slash.  A word or a character may
also be written as a literal in quotes, but such a word is never a name.
-/

namespace ClassLang.Adt

open ClassLang.Parser (Parsed Continued)

structure Symbol where
  text : String
  /-- Whether the symbol can be the name of something. -/
  isName : Bool
  deriving DecidableEq

/-! ## Comments -/

/-- What follows a comment, without the slash and the star that open it. -/
def blockComment? : (input : List Char) → Option (Parsed Unit input)
  | [] => none
  | '*' :: '/' :: rest => some ⟨(), rest, by simp only [List.length_cons]; omega⟩
  | _ :: rest => (blockComment? rest).map fun ⟨_, after, hafter⟩ =>
    ⟨(), after, by simp only [List.length_cons]; omega⟩

/-! ## Literals -/

/-- The letters that stand for a character after a backslash. -/
def escapeLetters : List (Char × Char) :=
  [('a', '\x07'), ('b', '\x08'), ('f', '\x0c'), ('n', '\n'), ('r', '\r'), ('t', '\t'),
   ('v', '\x0b'), ('\\', '\\')]

/-- The number of hexadecimal digits that a letter announces. -/
def codeWidth? : Char → Option Nat
  | 'x' => some 2
  | 'u' => some 4
  | 'U' => some 8
  | _ => none

/-- The character whose code has the given number of digits at the front. -/
def charOfCode? (base width : Nat) (input : List Char) : Option (Continued Char input) := do
  let digits := input.take width
  let code ← Text.digitsValue? base digits
  if digits.length == width && code.isValidChar then
    return ⟨Char.ofNat code, input.drop width, by simp⟩
  else none

/-- The character that an escape stands for, without its backslash.  Of the
quotes only the double one can be escaped, between double quotes. -/
def escape? (mark : Char) : (input : List Char) → Option (Continued Char input)
  | [] => none
  | c :: rest =>
    match escapeLetters.lookup c, codeWidth? c with
    | some value, _ => some ⟨value, rest, by simp⟩
    | none, some width => (charOfCode? 16 width rest).map fun ⟨value, after, hafter⟩ =>
      ⟨value, after, by simp only [List.length_cons]; omega⟩
    | none, none =>
      if c == '"' && mark == '"' then some ⟨c, rest, by simp⟩
      else charOfCode? 8 3 (c :: rest)

/-- A literal in single or double quotes, without its opening quote.  It is all
on one line. -/
def literal? (mark : Char) (input : List Char) : Option (Parsed (List Char) input) :=
  match input with
  | [] => none
  | '\\' :: rest => do
    let ⟨c, afterEscape, _⟩ ← escape? mark rest
    let ⟨text, after, _⟩ ← literal? mark afterEscape
    return ⟨c :: text, after, by simp only [List.length_cons]; omega⟩
  | c :: rest =>
    if c == mark then some ⟨[], rest, by simp⟩
    else if c == '\n' || c == '"' then none
    else do
      let ⟨text, after, _⟩ ← literal? mark rest
      return ⟨c :: text, after, by simp only [List.length_cons]; omega⟩
termination_by input.length

/-- A literal in back quotes, without its opening quote.  In it a backslash is
a character like others. -/
def rawLiteral? : (input : List Char) → Option (Parsed (List Char) input)
  | [] => none
  | '\x60' :: rest => some ⟨[], rest, by simp⟩
  | c :: rest => (rawLiteral? rest).map fun ⟨text, after, hafter⟩ =>
    ⟨c :: text, after, by simp only [List.length_cons]; omega⟩

/-! ## Symbols -/

def isSpace (c : Char) : Bool :=
  c == ' ' || c == '\t' || c == '\n' || c == '\r'

def startsName (c : Char) : Bool :=
  c == '_' || Text.isLetter c

def continuesName (c : Char) : Bool :=
  startsName c || Text.isDecimalDigit c

/-- The symbol at the front of a text that starts with the given character,
which is neither a blank nor the start of a comment. -/
def symbol? (c : Char) (rest : List Char) : Option (Continued Symbol rest) :=
  if startsName c then
    some ⟨⟨String.ofList (c :: rest.takeWhile continuesName), true⟩,
      rest.dropWhile continuesName, (List.dropWhile_sublist continuesName).length_le⟩
  else if c == '"' || c == '\'' then
    (literal? c rest).map fun ⟨text, after, hafter⟩ =>
      ⟨⟨String.ofList text, false⟩, after, Nat.le_of_lt hafter⟩
  else if c == '\x60' then
    (rawLiteral? rest).map fun ⟨text, after, hafter⟩ =>
      ⟨⟨String.ofList text, false⟩, after, Nat.le_of_lt hafter⟩
  else some ⟨⟨c.toString, false⟩, rest, Nat.le_refl _⟩

def symbols? (text : List Char) : Option (List Symbol) :=
  match text with
  | [] => some []
  | '/' :: '/' :: rest =>
    have : (rest.dropWhile (· != '\n')).length ≤ rest.length :=
      (List.dropWhile_sublist (· != '\n')).length_le
    symbols? (rest.dropWhile (· != '\n'))
  | '/' :: '*' :: rest => do
    let ⟨_, after, _⟩ ← blockComment? rest
    symbols? after
  | c :: rest =>
    if isSpace c then symbols? rest
    else do
      let ⟨symbol, after, _⟩ ← symbol? c rest
      let others ← symbols? after
      return symbol :: others
termination_by text.length
decreasing_by
  all_goals simp only [List.length_cons]
  all_goals omega

/-- The symbols of a file.  A byte order mark may stand in front, and no
character may be zero. -/
def fileSymbols? (text : List Char) : Option (List Symbol) :=
  let text := if text.head? == some '\ufeff' then text.drop 1 else text
  if text.contains '\x00' then none else symbols? text

end ClassLang.Adt
