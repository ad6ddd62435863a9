import ClassLang.Text.Decimal

/-!
# Places in a source

A position names a file, a line and a column; lines and columns count from one,
and columns count characters.  A span reaches from its first character to its
last one, both included.
-/

namespace ClassLang

structure Position where
  file : String
  line : Int
  column : Int
  deriving DecidableEq, Repr, Inhabited

namespace Position

/-- The place of the first character of a file. -/
def start (file : String) : Position :=
  ⟨file, 1, 1⟩

/-- The place after a character: only a line feed ends a line. -/
def after (position : Position) (c : Char) : Position :=
  if c == '\n' then { position with line := position.line + 1, column := 1 }
  else { position with column := position.column + 1 }

/-- The place `count` columns further on in the same line. -/
def right (position : Position) (count : Int) : Position :=
  { position with column := position.column + count }

def text (position : Position) : String :=
  (if position.file.isEmpty then "<unknown>" else position.file)
    ++ ":" ++ Text.decimal position.line ++ ":" ++ Text.decimal position.column

end Position

structure Span where
  first : Position
  last : Position
  deriving DecidableEq, Repr, Inhabited

namespace Span

/-- The span of one character. -/
def single (position : Position) : Span :=
  ⟨position, position⟩

def text (span : Span) : String :=
  span.first.text ++ "-" ++ Text.decimal span.last.line ++ ":" ++ Text.decimal span.last.column

/-- The span that belongs to no source. -/
def nowhere : Span :=
  single ⟨"", 0, 0⟩

end Span

end ClassLang
