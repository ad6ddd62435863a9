import ClassLang.Yaml.Cursor

/-!
# Gaps between words

A plain or quoted scalar may run over several lines.  Between two of its words
there are blanks, or there are line breaks with blanks around them.  Blanks
alone stand for themselves.  A single line break stands for a space, and of
several the first is left out; blanks around line breaks count for nothing.
-/

namespace ClassLang.Yaml

structure Gap where
  /-- The blanks before the first line break. -/
  blanks : List Char
  /-- The line breaks, as they are kept. -/
  breaks : List Char
  /-- Whether the gap starts with a line break that is escaped. -/
  isEscaped : Bool
  /-- Whether there is nothing after such a line break yet. -/
  isFresh : Bool

namespace Gap

/-- No gap at all. -/
def none : Gap := ⟨[], [], false, false⟩

/-- The gap that an escaped line break starts.  It stands for nothing itself. -/
def escaped : Gap := ⟨[], [], true, true⟩

def hasBreak (gap : Gap) : Bool :=
  gap.isEscaped || !gap.breaks.isEmpty

def isNone (gap : Gap) : Bool :=
  gap.blanks.isEmpty && !gap.hasBreak

def addBlank (gap : Gap) (c : Char) : Gap :=
  if gap.hasBreak then { gap with isFresh := false }
  else { gap with blanks := gap.blanks ++ [c] }

def addBreak (gap : Gap) (c : Char) : Gap :=
  { gap with breaks := gap.breaks ++ [keptBreak c], isFresh := false }

/-- What the gap stands for. -/
def text (gap : Gap) : List Char :=
  if gap.isEscaped then gap.breaks
  else
    match gap.breaks with
    | [] => gap.blanks
    | ['\n'] => [' ']
    | '\n' :: others => others
    | breaks => breaks

/-- The number of characters to look at after part of a gap, or after a character
of a word. -/
def lookAhead (gap : Gap) : Nat :=
  if gap.isNone then 2 else 1

/-- Looks at the word that a gap ends with, which may be the mark of a document. -/
def lookAtWord (gap : Gap) (place : Place) (text : List Char) : Except Fault Place :=
  if gap.isNone then .ok place else place.look markWidth text

end Gap

end ClassLang.Yaml
