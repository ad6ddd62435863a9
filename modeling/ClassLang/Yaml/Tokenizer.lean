import ClassLang.Yaml.Block
import ClassLang.Yaml.Encoding
import ClassLang.Yaml.Property
import ClassLang.Yaml.Quoted

/-!
# From text to tokens

Outside brackets, a line that is indented further than the one before opens a
list or a mapping, and one that is indented less closes some.  That a scalar or
a bracket starts a key shows only at the colon after it, on the same line; until
then it is a pending key, and the tokens that a key needs are put in front of it
afterwards.  So of the tokens that are there at some point, those from the first
pending key on are not yet settled.

While what is in view of the text starts with an order mark, the first character
of every line is left out.
-/

namespace ClassLang.Yaml

/-- A place where a key may have started. -/
structure PendingKey where
  place : Place
  /-- The number of tokens before the key. -/
  number : Nat
  /-- Whether only a key can stand here. -/
  isRequired : Bool

structure Tokenizer where
  cursor : Cursor
  tokens : Array Token
  /-- The columns of the open lists and mappings, the innermost first. -/
  indents : List Nat
  /-- Whether a key may start here. -/
  keyAllowed : Bool
  /-- The pending key between the innermost brackets. -/
  key : Option PendingKey
  /-- The pending keys outside the brackets that are open, the innermost first. -/
  outerKeys : List (Option PendingKey)

/-- A key is on one line and not longer than this. -/
def keyLimit : Nat := 1024

namespace Tokenizer

def ofSource (source : Source) : Tokenizer :=
  ⟨.ofText source.view source.text, #[], [], true, none, []⟩

def place (state : Tokenizer) : Place :=
  state.cursor.place

def inFlow (state : Tokenizer) : Bool :=
  !state.outerKeys.isEmpty

def fail {α : Type} (state : Tokenizer) (problem : TextProblem) : Except Fault α :=
  state.cursor.fail problem

def push (state : Tokenizer) (kind : TokenKind) (line : Nat) : Tokenizer :=
  { state with tokens := state.tokens.push ⟨kind, line⟩ }

/-! ## Pending keys -/

def isOver (state : Tokenizer) (key : PendingKey) : Bool :=
  key.place.line < state.place.line || key.place.index + keyLimit < state.place.index

/-- Gives up the pending keys that are over. -/
def dropOldKeys (state : Tokenizer) : Except Fault Tokenizer :=
  if (state.key :: state.outerKeys).any
      fun key => key.any fun key => key.isRequired && state.isOver key then
    state.fail .expectedColon
  else
    let stillPending (key : Option PendingKey) : Option PendingKey :=
      key.filter fun key => !state.isOver key
    .ok { state with
      key := stillPending state.key, outerKeys := state.outerKeys.map stillPending }

/-- Gives up the pending key between the innermost brackets. -/
def dropKey (state : Tokenizer) : Except Fault Tokenizer :=
  if state.key.any PendingKey.isRequired then state.fail .expectedColon
  else .ok { state with key := none }

/-- Notes that a key may start here.  At the column of an open mapping nothing
else can. -/
def noteKey (state : Tokenizer) : Except Fault Tokenizer :=
  if !state.keyAllowed then .ok state
  else do
    let state ← state.dropKey
    let isRequired := !state.inFlow && state.indents.head? == some state.place.column
    return { state with key := some ⟨state.place, state.tokens.size, isRequired⟩ }

/-! ## Indentation -/

/-- Opens a list or a mapping if a column is further right than the innermost
open one.  Its token gets the given number and line. -/
def indent (state : Tokenizer) (column number : Nat) (kind : TokenKind) (line : Nat) : Tokenizer :=
  if !state.inFlow && state.indents.head?.all (· < column) then
    { state with
      indents := column :: state.indents
      tokens := state.tokens.insertIdxIfInBounds number ⟨kind, line⟩ }
  else state

/-- Opens a list or a mapping at the column where the text is. -/
def indentHere (state : Tokenizer) (kind : TokenKind) : Tokenizer :=
  state.indent state.place.column state.tokens.size kind state.place.line

/-- Closes the lists and mappings that a test on their columns picks out. -/
def dedent (state : Tokenizer) (isClosed : Nat → Bool) : Tokenizer :=
  if state.inFlow then state
  else
    let closed := state.indents.takeWhile isClosed
    { state with
      indents := state.indents.drop closed.length
      tokens := state.tokens ++ (closed.map fun _ => ⟨.blockEnd, state.place.line⟩).toArray }

/-! ## Steps -/

/-- What the characters at some place start. -/
inductive Start where
  | textEnd
  | directive
  | documentStart
  | documentEnd
  | openSequence
  | openMapping
  | closeSequence
  | closeMapping
  | comma
  | entry
  | key
  | value
  | alias
  | anchor
  | tag
  | literal
  | folded
  | singleQuote
  | doubleQuote
  | plain
  deriving DecidableEq

def start? (state : Tokenizer) : Option Start :=
  match state.cursor.rest with
  | [] => some .textEnd
  | c :: rest =>
    let atEdge := state.place.column == 0
    let inFlow := state.inFlow
    if atEdge && c == '%' then some .directive
    else if atEdge && isMark '-' (c :: rest) then some .documentStart
    else if atEdge && isMark '.' (c :: rest) then some .documentEnd
    else if opensPlain inFlow (c :: rest) then some .plain
    else match c with
      | '[' => some .openSequence
      | '\x7b' => some .openMapping
      | ']' => some .closeSequence
      | '\x7d' => some .closeMapping
      | ',' => some .comma
      | '-' => some .entry
      | '?' => some .key
      | ':' => some .value
      | '*' => some .alias
      | '&' => some .anchor
      | '!' => some .tag
      | '|' => if inFlow then none else some .literal
      | '>' => if inFlow then none else some .folded
      | '\'' => some .singleQuote
      | '"' => some .doubleQuote
      | _ => none

/-- Whether the first character of a line is left out here. -/
def cutsHere (place : Place) : Bool :=
  place.column == 0 && place.view.startsWithMark

/-- Goes past blanks, comments and line breaks, and says whether a key may start
after them.  A tab may not stand where a key could start. -/
def skip (inFlow keyAllowed inComment : Bool) (place : Place) (text : List Char) :
    Except Fault (Bool × Cursor) := do
  let place ← place.look 1 text
  match text with
  | [] =>
    let place ← if cutsHere place then place.next.look 1 [] else pure place
    return (keyAllowed, ⟨[], place⟩)
  | c :: rest =>
    if cutsHere place then skip inFlow keyAllowed false place.next rest
    else if isLineBreak c then
      let place ← place.look 2 text
      match c, rest with
      | '\r', '\n' :: rest => skip inFlow (keyAllowed || !inFlow) false (place.nextLine 2) rest
      | _, rest => skip inFlow (keyAllowed || !inFlow) false (place.nextLine 1) rest
    else if inComment || c == '#' then skip inFlow keyAllowed true place.next rest
    else if c == ' ' || (c == '\t' && (inFlow || !keyAllowed)) then
      skip inFlow keyAllowed false place.next rest
    else return (keyAllowed, ⟨text, place⟩)
termination_by text.length

/-- Looks far enough to tell what comes next. -/
def lookAhead (state : Tokenizer) : Except Fault Tokenizer := do
  let cursor ← state.cursor.look markWidth
  return { state with cursor }

/-- The state at the next token, with the lists and mappings closed that end
before it. -/
def approach (state : Tokenizer) : Except Fault Tokenizer := do
  let (keyAllowed, cursor) ←
    skip state.inFlow state.keyAllowed false state.place state.cursor.rest
  let state ← dropOldKeys { state with keyAllowed, cursor }
  (state.dedent (state.place.column < ·)).lookAhead

/-- The end of the text is at the start of a line. -/
def toLineStart (state : Tokenizer) : Tokenizer :=
  if state.place.column == 0 then state
  else { state with cursor := ⟨state.cursor.rest, state.place.nextLine 0⟩ }

/-- Closes all lists and mappings outside brackets. -/
def closeAll (state : Tokenizer) : Except Fault Tokenizer := do
  let state ← (state.dedent fun _ => true).dropKey
  return { state with keyAllowed := false }

/-- A list entry or a key that is not on one line opens a list or a mapping
where a key may start. -/
def openEntry (state : Tokenizer) (kind : TokenKind) (problem : TextProblem) :
    Except Fault Tokenizer :=
  if state.inFlow then .ok state
  else if state.keyAllowed then .ok (state.indentHere kind)
  else state.fail problem

/-- A colon makes a key of the pending one, or comes after a key that is not on
one line. -/
def openValue (state : Tokenizer) : Except Fault Tokenizer :=
  match state.key with
  | some key =>
    let withKey := { state with
      tokens := state.tokens.insertIdxIfInBounds key.number ⟨.key, key.place.line⟩
      key := none
      keyAllowed := false }
    .ok (withKey.indent key.place.column key.number .mappingStart key.place.line)
  | none => do
    let state ← state.openEntry .mappingStart .nestedValues
    return { state with keyAllowed := !state.inFlow }

/-- The state before a token is read, but after what its start means for keys and
indentation. -/
def accept (state : Tokenizer) : Start → Except Fault Tokenizer
  | .textEnd => state.toLineStart.closeAll
  | .directive | .documentStart | .documentEnd => state.closeAll
  | .openSequence | .openMapping => do
    let state ← state.noteKey
    return { state with key := none, outerKeys := state.key :: state.outerKeys, keyAllowed := true }
  | .closeSequence | .closeMapping => do
    let state ← state.dropKey
    return { state with
      key := state.outerKeys.head?.join, outerKeys := state.outerKeys.drop 1, keyAllowed := false }
  | .comma => do
    let state ← state.dropKey
    return { state with keyAllowed := true }
  | .entry => do
    let state ← state.openEntry .sequenceStart .nestedEntries
    let state ← state.dropKey
    return { state with keyAllowed := true }
  | .key => do
    let state ← state.openEntry .mappingStart .nestedKeys
    let state ← state.dropKey
    return { state with keyAllowed := !state.inFlow }
  | .value => state.openValue
  | .literal | .folded => do
    let state ← state.dropKey
    return { state with keyAllowed := true }
  | .alias | .anchor | .tag | .singleQuote | .doubleQuote | .plain => do
    let state ← state.noteKey
    return { state with keyAllowed := false }

structure Lexeme where
  kind : TokenKind
  cursor : Cursor
  /-- Whether a line break comes after it that belongs to it. -/
  endsLine : Bool

/-- A scalar in quotes or in a block. -/
def markedScalar (text : List Char) (cursor : Cursor) : Lexeme :=
  ⟨.scalar ⟨String.ofList text, false⟩, cursor, false⟩

def blockLexeme (state : Tokenizer) (isLiteral : Bool) : Except Fault Lexeme := do
  let scalar ← blockScalar isLiteral state.indents.head? (state.cursor.drop 1)
  return markedScalar scalar.text scalar.cursor

/-- The token that starts here. -/
def lexeme (state : Tokenizer) (start : Start) : Except Fault Lexeme :=
  let mark (kind : TokenKind) (width : Nat) : Except Fault Lexeme :=
    .ok ⟨kind, state.cursor.drop width, false⟩
  let inner := state.cursor.drop 1
  let ofProperty (result : Except Fault (TokenKind × Cursor)) : Except Fault Lexeme :=
    result.map fun (kind, cursor) => ⟨kind, cursor, false⟩
  match start with
  | .textEnd => mark .textEnd 0
  | .directive => ofProperty (readDirective inner)
  | .documentStart => mark .documentStart 3
  | .documentEnd => mark .documentEnd 3
  | .openSequence => mark .openSequence 1
  | .openMapping => mark .openMapping 1
  | .closeSequence => mark .closeSequence 1
  | .closeMapping => mark .closeMapping 1
  | .comma => mark .comma 1
  | .entry => mark .entry 1
  | .key => mark .key 1
  | .value => mark .value 1
  | .alias => ofProperty ((readName inner).map fun (name, after) => (.alias name, after))
  | .anchor => ofProperty ((readName inner).map fun (name, after) => (.anchor name, after))
  | .tag => ofProperty (readTag state.cursor)
  | .literal => state.blockLexeme true
  | .folded => state.blockLexeme false
  | .singleQuote => do
    let start ← inner.look markWidth
    let scalar ← readSingleQuoted .none start.place start.rest
    return markedScalar scalar.text scalar.cursor
  | .doubleQuote => do
    let start ← inner.look markWidth
    let scalar ← readDoubleQuoted .none start.place start.rest
    return markedScalar scalar.text scalar.cursor
  | .plain => do
    let least := state.indents.head?.elim 0 (· + 1)
    let start ← state.cursor.look markWidth
    let scalar ← readPlain state.inFlow least .none start.place start.rest
    return ⟨.scalar ⟨String.ofList scalar.text, true⟩, scalar.cursor, scalar.endsLine⟩

/-- Goes to the next token and past it. -/
def step (state : Tokenizer) : Except Fault Tokenizer := do
  let state ← state.approach
  match state.start? with
  | none => state.fail .badStart
  | some start =>
    let accepted ← state.accept start
    let lexeme ← accepted.lexeme start
    let passed := { accepted with
      cursor := lexeme.cursor, keyAllowed := accepted.keyAllowed || lexeme.endsLine }
    (passed.push lexeme.kind accepted.place.line).dropOldKeys

def isDone (state : Tokenizer) : Bool :=
  state.tokens.back?.any fun token => token.kind == .textEnd

/-- The tokens before the first pending key. -/
def settled (state : Tokenizer) : List Token :=
  let numbers := (state.key :: state.outerKeys).filterMap fun key => key.map PendingKey.number
  state.tokens.toList.take (numbers.foldl min state.tokens.size)

/-- All tokens from here on.  Every token but the last takes at least one
character, so the number of characters is fuel enough. -/
def run : (fuel : Nat) → Tokenizer → Tokens
  | 0, state => ⟨state.settled, .text state.place.line .unexpectedEnd⟩
  | fuel + 1, state =>
    match state.step with
    | .error fault => ⟨state.settled, fault⟩
    | .ok next =>
      if next.isDone then ⟨next.tokens.toList, .text next.place.line .unexpectedEnd⟩
      else run fuel next

end Tokenizer

def Tokens.ofSource (source : Source) : Tokens :=
  Tokenizer.run (source.text.length + 1) (.ofSource source)

end ClassLang.Yaml
