import ClassLang.Yaml.Character
import ClassLang.Yaml.View

/-!
# Places in a text

A cursor holds the rest of a text and the place where the rest starts.  Lines
and columns are counted from zero, columns in characters.  Whoever decides by
the characters that come next looks ahead at them first.
-/

namespace ClassLang.Yaml

structure Place where
  /-- The number of characters before the place. -/
  index : Nat
  line : Nat
  column : Nat
  /-- What is in view at this point. -/
  view : View
  deriving DecidableEq

namespace Place

/-- The place after a character that breaks no line. -/
def next (place : Place) : Place :=
  { place with index := place.index + 1, column := place.column + 1 }

/-- The place after a line break of the given number of characters. -/
def nextLine (place : Place) (width : Nat) : Place :=
  { place with index := place.index + width, line := place.line + 1, column := 0 }

/-- The place after characters that break no line. -/
def advance (place : Place) (count : Nat) : Place :=
  { place with index := place.index + count, column := place.column + count }

/-- The place after a look at a number of characters of the rest. -/
def look (place : Place) (count : Nat) (rest : List Char) : Except Fault Place := do
  let view ← place.view.look (place.index + count) rest
  return { place with view }

theorem look_whole {place : Place} (hwhole : place.view = .whole) (count : Nat)
    (rest : List Char) : place.look count rest = .ok place := by
  cases place
  simp only at hwhole
  subst hwhole
  rfl

end Place

structure Cursor where
  rest : List Char
  place : Place

namespace Cursor

def ofText (view : View) (text : List Char) : Cursor :=
  ⟨text, ⟨0, 0, 0, view⟩⟩

def fail {α : Type} (cursor : Cursor) (problem : TextProblem) : Except Fault α :=
  .error (.text cursor.place.line problem)

def look (cursor : Cursor) (count : Nat) : Except Fault Cursor := do
  let place ← cursor.place.look count cursor.rest
  return { cursor with place }

/-- The cursor after characters that break no line. -/
def drop (cursor : Cursor) (count : Nat) : Cursor :=
  ⟨cursor.rest.drop count, cursor.place.advance count⟩

end Cursor

/-- The characters of a kind that breaks no line, and the cursor after them. -/
def readWhile (p : Char → Bool) (place : Place) (text : List Char) :
    Except Fault (List Char × Cursor) := do
  let place ← place.look 1 text
  match text with
  | [] => return ([], ⟨[], place⟩)
  | c :: rest =>
    if p c then
      let (others, after) ← readWhile p place.next rest
      return (c :: others, after)
    else return ([], ⟨c :: rest, place⟩)

namespace Cursor

def takeWhile (cursor : Cursor) (p : Char → Bool) : Except Fault (List Char × Cursor) :=
  readWhile p cursor.place cursor.rest

def dropWhile (cursor : Cursor) (p : Char → Bool) : Except Fault Cursor := do
  let (_, after) ← cursor.takeWhile p
  return after

/-- The cursor after a line break, if one comes next. -/
def dropBreak (cursor : Cursor) : Except Fault Cursor :=
  match cursor.rest with
  | [] => .ok cursor
  | c :: rest =>
    if isLineBreak c then do
      let seen ← cursor.look 2
      if c == '\r' && rest.head? == some '\n' then
        return ⟨rest.drop 1, seen.place.nextLine 2⟩
      else return ⟨rest, seen.place.nextLine 1⟩
    else .ok cursor

/-- The cursor after the blanks, the comment and the line break that end a line. -/
def dropLineEnd (cursor : Cursor) : Except Fault Cursor := do
  let afterBlanks ← cursor.dropWhile isBlank
  let atEnd ←
    if afterBlanks.rest.head? == some '#' then afterBlanks.dropWhile fun c => !isLineBreak c
    else pure afterBlanks
  if startsSpacing atEnd.rest then atEnd.dropBreak else atEnd.fail .expectedLineBreak

end Cursor

end ClassLang.Yaml
