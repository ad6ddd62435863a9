import ClassLang.Text.Digit

/-!
# Characters of a document

Blanks and line breaks separate the words of a document.  Five characters break
a line; a carriage return and a line feed together break it once.  Most control
characters may not stand in a document at all, and some characters that may be
read are still escaped when they are written.
-/

namespace ClassLang.Yaml

def isBlank (c : Char) : Bool :=
  c == ' ' || c == '\t'

def isLineBreak (c : Char) : Bool :=
  c == '\n' || c == '\r' || c == '\u0085' || c == '\u2028' || c == '\u2029'

def isSpacing (c : Char) : Bool :=
  isBlank c || isLineBreak c

/-- Whether a blank, a line break or the end of the text comes next. -/
def startsSpacing : List Char → Bool
  | [] => true
  | c :: _ => isSpacing c

/-- What a line break in a document stands for.  Only the two separators of
lines and of paragraphs are told apart from a line feed. -/
def keptBreak (c : Char) : Char :=
  if c == '\u2028' || c == '\u2029' then c else '\n'

/-- The characters of the names of anchors, directives and tag handles. -/
def isNameChar (c : Char) : Bool :=
  Text.isAsciiDigit c || ('a' ≤ c && c ≤ 'z') || ('A' ≤ c && c ≤ 'Z') || c == '_' || c == '-'

/-- Characters that may stand in a document. -/
def isAllowed (c : Char) : Bool :=
  let code := c.toNat
  c == '\t' || c == '\n' || c == '\r' || (0x20 ≤ code && code ≤ 0x7E) || code == 0x85
    || (0xA0 ≤ code && code ≤ 0xFFFD) || 0x10000 ≤ code

/-- Characters that are written as they are.  Those beyond the basic plane are
always escaped. -/
def isDirect (c : Char) : Bool :=
  let code := c.toNat
  c == '\n' || (0x20 ≤ code && code ≤ 0x7E)
    || (0xA0 ≤ code && code ≤ 0xFFFD && code != 0xFEFF)

/-- Whether three characters of a kind come next, with spacing after them, which
at the left edge is the mark for the start or the end of a document. -/
def isMark (c : Char) (text : List Char) : Bool :=
  text.take 3 == [c, c, c] && startsSpacing (text.drop 3)

/-- The number of characters by which a mark is told. -/
def markWidth : Nat := 4

def startsMark (text : List Char) : Bool :=
  isMark '-' text || isMark '.' text

end ClassLang.Yaml
