import ClassLang.Yaml.Cursor
import ClassLang.Yaml.Fault
import ClassLang.Yaml.Gap

/-!
# Plain scalars

A plain scalar stands without quotes.  It ends before a colon or a comment with
spacing at its side, before a line that is not indented enough, and between
brackets also before a comma or a bracket.  When one is written, a line that has
become too long is broken at the next single space.
-/

namespace ClassLang.Yaml

/-! ## Reading -/

/-- Characters that have a meaning of their own at the start of a word. -/
def isIndicator (c : Char) : Bool :=
  [',', '[', ']', '\x7b', '\x7d', '#', '&', '*', '!', '|', '>', '\'', '"', '%', '@', '\x60']
    |>.contains c

/-- Whether a plain scalar can start here. -/
def opensPlain (inFlow : Bool) : List Char → Bool
  | [] => false
  | c :: rest =>
    if c == '-' then !startsSpacing rest
    else if c == '?' || c == ':' then !inFlow && !startsSpacing rest
    else !isSpacing c && !isIndicator c

/-- Whether a plain scalar ends before a character, wherever it is. -/
def closesWord (inFlow : Bool) (c : Char) (rest : List Char) : Bool :=
  (c == ':' && startsSpacing rest)
    || (inFlow && [',', '?', '[', ']', '\x7b', '\x7d'].contains c)

/-- Whether a plain scalar ends before a character that follows a gap. -/
def closesPlain (column : Nat) (text : List Char) : Bool :=
  text.head? == some '#' || (column == 0 && startsMark text)

structure PlainScalar where
  text : List Char
  /-- Whether there is a line break between the scalar and what follows. -/
  endsLine : Bool
  cursor : Cursor

/-- Reads on after a gap. -/
def readPlain (inFlow : Bool) (indent : Nat) (gap : Gap) (place : Place) (text : List Char) :
    Except Fault PlainScalar := do
  let place ← place.look gap.lookAhead text
  let ended (place : Place) : PlainScalar := ⟨[], gap.hasBreak, ⟨text, place⟩⟩
  let isDedented := !gap.isNone && !inFlow && place.column < indent
  match text with
  | '\r' :: '\n' :: rest =>
    let place ← place.look 2 text
    readPlain inFlow indent (gap.addBreak '\n') (place.nextLine 2) rest
  | c :: rest =>
    if isLineBreak c then
      let place ← place.look 2 text
      readPlain inFlow indent (gap.addBreak c) (place.nextLine 1) rest
    else if isBlank c then
      if c == '\t' && gap.hasBreak && place.column < indent then
        throw (.text place.line .tabIndentation)
      readPlain inFlow indent (gap.addBlank c) place.next rest
    else if isDedented then return ended place
    else
      let place ← gap.lookAtWord place text
      if closesWord inFlow c rest || (!gap.isNone && closesPlain place.column text) then
        return ended place
      let scalar ← readPlain inFlow indent .none place.next rest
      return { scalar with text := gap.text ++ c :: scalar.text }
  | [] =>
    if isDedented then return ended place
    else
      let place ← gap.lookAtWord place text
      return ended place

/-! ## Writing -/

/-- A line longer than this is broken where it can be. -/
def lineWidth : Nat := 80

/-- The indentation of the lines of a scalar after its first. -/
def scalarIndent : Nat := 2

def indentation : List Char := List.replicate scalarIndent ' '

/-- Whether a line is broken at a space.  The spaces at both sides of a line
break are not read back, so only a single space can be a line break. -/
def breaksAt (column : Nat) (afterSpace : Bool) (rest : List Char) : Bool :=
  lineWidth < column && !afterSpace && rest.head?.any (· != ' ')

/-- Writes on from a column, knowing whether a space comes before. -/
def writePlain (column : Nat) (afterSpace : Bool) : List Char → List Char
  | [] => []
  | c :: rest =>
    if c == ' ' then
      if breaksAt column afterSpace rest then
        '\n' :: indentation ++ writePlain scalarIndent true rest
      else ' ' :: writePlain (column + 1) true rest
    else c :: writePlain (column + 1) false rest

/-- Whether some character of one kind directly precedes one of another. -/
def hasPair (p q : Char → Bool) : List Char → Bool
  | c :: d :: rest => (p c && q d) || hasPair p q (d :: rest)
  | _ => false

/-- Whether a plain scalar that is written would end inside the text. -/
def closesInside (text : List Char) : Bool :=
  text.getLast? == some ':' || hasPair (· == ':') isBlank text || hasPair isBlank (· == '#') text

/-- Whether a text opens with the characters of a document mark. -/
def looksLikeMark (text : List Char) : Bool :=
  ['-', '-', '-'].isPrefixOf text || ['.', '.', '.'].isPrefixOf text

/-- Whether a text reads back as it is without quotes, if it is no other value. -/
def canBePlain (text : List Char) : Bool :=
  opensPlain false text && !looksLikeMark text && text.getLast? != some ' ' && !closesInside text
    && text.all fun c => isDirect c && !isLineBreak c

end ClassLang.Yaml
