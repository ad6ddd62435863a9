import ClassLang.Yaml.Plain

/-!
# Block scalars

A block scalar is a run of lines that are indented below a header.  A literal
one keeps its line breaks; in a folded one a single line break between two lines
of text stands for a space.  The header may give the indentation, which is
otherwise that of the first line of text, and says what becomes of the line
breaks at the end.
-/

namespace ClassLang.Yaml

/-- What becomes of the line breaks at the end. -/
inductive Chomping where
  | strip
  | clip
  | keep
  deriving DecidableEq

structure BlockHeader where
  chomping : Chomping
  /-- By how much the lines are indented, if that is given. -/
  increment : Option Nat

/-! ## Reading -/

def chompingOf? : Char → Option Chomping
  | '+' => some .keep
  | '-' => some .strip
  | _ => none

/-- The digit of an indentation, if one comes next, and what follows it. -/
def readIncrement (cursor : Cursor) : Except Fault (Option Nat × Cursor) :=
  match cursor.rest.head? with
  | none => .ok (none, cursor)
  | some c =>
    if c == '0' then cursor.fail .zeroIndentation
    else if Text.isAsciiDigit c then .ok (Text.hexValue? c, cursor.drop 1)
    else .ok (none, cursor)

/-- The sign of a header, if one comes next, and what follows it. -/
def readChomping (cursor : Cursor) : Option Chomping × Cursor :=
  match cursor.rest.head?.bind chompingOf? with
  | some chomping => (chomping, cursor.drop 1)
  | none => (none, cursor)

/-- A header, without the character that opens it.  Sign and digit may come in
either order. -/
def readHeader (cursor : Cursor) : Except Fault (BlockHeader × Cursor) := do
  let start ← cursor.look 1
  match readChomping start with
  | (some chomping, afterSign) =>
    let (increment, after) ← readIncrement (← afterSign.look 1)
    return (⟨chomping, increment⟩, after)
  | (none, _) =>
    let (increment, afterDigit) ← readIncrement start
    if increment.isNone then return (⟨.clip, none⟩, afterDigit)
    let (chomping, after) := readChomping (← afterDigit.look 1)
    return (⟨chomping.getD .clip, increment⟩, after)

/-- How far a block scalar has been read. -/
structure BlockState where
  /-- The indentation, once it is known. -/
  indent : Option Nat
  /-- The widest indentation of the empty lines so far. -/
  widest : Nat
  /-- The line break after the last line of text. -/
  lineEnd : List Char
  /-- The line breaks after that one. -/
  emptyLines : List Char
  /-- Whether the last line of text starts with a blank. -/
  afterBlank : Bool

namespace BlockState

/-- What stands between the last line of text and one that starts with the given
character. -/
def joint (state : BlockState) (isLiteral : Bool) (c : Char) : List Char :=
  if isLiteral || state.afterBlank || isBlank c || state.lineEnd != ['\n'] then
    state.lineEnd ++ state.emptyLines
  else if state.emptyLines.isEmpty then [' ']
  else state.emptyLines

/-- What stands at the end of the text. -/
def tail (state : BlockState) : Chomping → List Char
  | .strip => []
  | .clip => state.lineEnd
  | .keep => state.lineEnd ++ state.emptyLines

/-- Whether the margin goes beyond a column. -/
def inMargin (state : BlockState) (column : Nat) : Bool :=
  state.indent.all (column < ·)

end BlockState

structure BlockScalar where
  text : List Char
  cursor : Cursor

/-- The state after a line break, inside a line of text or in the margin. -/
def BlockState.addBreak (state : BlockState) (inLine : Bool) (c : Char) : BlockState :=
  if inLine then { state with lineEnd := [keptBreak c], emptyLines := [] }
  else { state with emptyLines := state.emptyLines ++ [keptBreak c] }

/-- Reads on, inside a line of text or in the margin of a line.  The indentation
is at least `least`. -/
def readBlock (isLiteral : Bool) (chomping : Chomping) (least : Nat) (state : BlockState)
    (inLine : Bool) (place : Place) (text : List Char) : Except Fault BlockScalar := do
  let place ← place.look 1 text
  match text with
  | '\r' :: '\n' :: rest =>
    let place ← place.look 2 text
    readBlock isLiteral chomping least (state.addBreak inLine '\n') false (place.nextLine 2) rest
  | c :: rest =>
    if isLineBreak c then
      let place ← place.look 2 text
      readBlock isLiteral chomping least (state.addBreak inLine c) false (place.nextLine 1) rest
    else if inLine then
      let scalar ← readBlock isLiteral chomping least state true place.next rest
      return { scalar with text := c :: scalar.text }
    else if c == ' ' && state.inMargin place.column then
      let state := { state with widest := max state.widest (place.column + 1) }
      readBlock isLiteral chomping least state false place.next rest
    else if c == '\t' && state.inMargin place.column then
      throw (.text place.line .tabInBlock)
    else
      let indent := state.indent.getD (max state.widest least)
      if place.column == indent then
        let line : BlockState := ⟨some indent, 0, [], [], isBlank c⟩
        let scalar ← readBlock isLiteral chomping least line true place.next rest
        return { scalar with text := state.joint isLiteral c ++ c :: scalar.text }
      else return ⟨state.tail chomping, ⟨text, place⟩⟩
  | [] =>
    let place ← if inLine then place.look 2 text else pure place
    return ⟨state.tail chomping, ⟨text, place⟩⟩

/-- A block scalar after the character that opens it, among lines with the given
indentation. -/
def blockScalar (isLiteral : Bool) (outer : Option Nat) (cursor : Cursor) :
    Except Fault BlockScalar := do
  let (header, afterHeader) ← readHeader cursor
  let start ← afterHeader.dropLineEnd
  let indent := header.increment.map fun increment => outer.getD 0 + increment
  let least := outer.elim 1 (· + 1)
  readBlock isLiteral header.chomping least ⟨indent, 0, [], [], false⟩ false start.place start.rest

/-! ## Writing -/

/-- The lines of a literal scalar.  Every line of text is indented. -/
def literalLines (atStart : Bool) : List Char → List Char
  | [] => []
  | c :: rest =>
    if isLineBreak c then c :: literalLines true rest
    else (if atStart then indentation else []) ++ c :: literalLines false rest

/-- Whether some line break ends a text. -/
def endsWithBreak (text : List Char) : Bool :=
  text.getLast?.any isLineBreak

/-- The sign that keeps the line breaks at the end of a text as they are. -/
def chompingSign (text : List Char) : List Char :=
  if !endsWithBreak text then ['-']
  else if text.length == 1 || endsWithBreak text.dropLast then ['+']
  else []

/-- The indentation has to be given where a text starts with a space or a line
break, since it would be misread there. -/
def incrementDigit (text : List Char) : List Char :=
  if text.head?.any fun c => c == ' ' || isLineBreak c then [Nat.digitChar scalarIndent] else []

/-- A literal scalar, without the line break after its last line of text. -/
def literal (text : List Char) : List Char :=
  '|' :: incrementDigit text ++ chompingSign text ++ '\n' :: literalLines true text

/-- Whether a text reads back as it is from a literal scalar. -/
def canBeLiteral (text : List Char) : Bool :=
  text.all isDirect && !hasPair (· == ' ') isLineBreak text && text.getLast? != some ' '

end ClassLang.Yaml
