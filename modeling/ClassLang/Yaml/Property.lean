import ClassLang.Text.Utf8
import ClassLang.Yaml.Cursor
import ClassLang.Yaml.Encoding
import ClassLang.Yaml.Token

/-!
# Anchors, tags and directives

A value may have a name, by which it can be used again, and a tag, which says
what kind of value it is.  A tag is written in full between angle brackets, or
as a handle and a suffix; a directive at the start of a document says what a
handle stands for.
-/

namespace ClassLang.Yaml

/-! ## Anchors and aliases -/

/-- Whether a name can end before what comes next. -/
def endsName (text : List Char) : Bool :=
  startsSpacing text
    || text.head?.any fun c => ['?', ':', ',', ']', '\x7d', '%', '@', '\x60'].contains c

/-- A name after the character that announces it. -/
def readName (cursor : Cursor) : Except Fault (String × Cursor) := do
  let (name, after) ← cursor.takeWhile isNameChar
  if name.isEmpty || !endsName after.rest then after.fail .expectedName
  else return (String.ofList name, after)

/-! ## Tags -/

/-- The characters of a tag that stand for themselves. -/
def isTagChar (c : Char) : Bool :=
  isNameChar c || [';', '/', '?', ':', '@', '&', '=', '+', '$', ',', '.', '!', '~', '*', '\'',
    '(', ')', '[', ']'].contains c

/-- The number of bytes of a character that are still missing after one that is
given by its number, if `missing` were missing before. -/
def missingAfter (missing octet : Nat) : Except TextProblem Nat :=
  if missing == 0 then
    match leadParts? octet with
    | some (width, _) => .ok (width - 1)
    | none => .error .badLeadOctet
  else if octet / 64 == 2 then .ok (missing - 1)
  else .error .badTailOctet

/-- The bytes of a tag, and the cursor after it.  Bytes may be written as two
hexadecimal digits after a percent sign; then those of one character have to
follow one another, and `missing` of them are still to come. -/
def readTagBytes (missing : Nat) (place : Place) (text : List Char) :
    Except Fault (List UInt8 × Cursor) := do
  let isEscape := missing != 0 || text.head? == some '%'
  let place ← if missing == 0 then place.look 1 text else pure place
  let place ← if isEscape then place.look 3 text else pure place
  match text with
  | '%' :: high :: low :: rest =>
    match Text.digitsValue? 16 [high, low] with
    | none => throw (.text place.line .badOctet)
    | some octet =>
      let missing ← (missingAfter missing octet).mapError (Fault.text place.line)
      let (bytes, after) ← readTagBytes missing (place.advance 3) rest
      return (octet.toUInt8 :: bytes, after)
  | c :: rest =>
    if isEscape then throw (.text place.line .badOctet)
    else if isTagChar c then
      let (bytes, after) ← readTagBytes 0 place.next rest
      return (c.toNat.toUInt8 :: bytes, after)
    else return ([], ⟨text, place⟩)
  | [] => if isEscape then throw (.text place.line .badOctet) else return ([], ⟨text, place⟩)

/-- The text of a tag, and the cursor after it. -/
def readTagText (cursor : Cursor) : Except Fault (String × Cursor) := do
  let (bytes, after) ← readTagBytes 0 cursor.place cursor.rest
  return (Text.decode ⟨bytes.toArray⟩, after)

/-- Text of a tag that may not be empty. -/
def readTagSuffix (cursor : Cursor) : Except Fault (String × Cursor) := do
  let (text, after) ← readTagText cursor
  if after.place.index == cursor.place.index then after.fail .expectedTag
  else return (text, after)

/-- The exclamation mark, the name and the exclamation mark of a handle, of
which only the first has to be there. -/
def readHandle (cursor : Cursor) : Except Fault (List Char × Cursor) := do
  let start ← cursor.look 1
  if start.rest.head? != some '!' then start.fail .expectedHandle
  else
    let (name, after) ← (start.drop 1).takeWhile isNameChar
    if after.rest.head? == some '!' then return ('!' :: name ++ ['!'], after.drop 1)
    else return ('!' :: name, after)

/-- Whether a handle has both its marks. -/
def isWholeHandle (handle : List Char) : Bool :=
  1 < handle.length && handle.getLast? == some '!'

/-- The cursor, if spacing comes next. -/
def expectSpacing (cursor : Cursor) : Except Fault Cursor := do
  let seen ← cursor.look 1
  if startsSpacing seen.rest then return seen else seen.fail .expectedSpacing

/-- A tag in full, after the bracket that opens it. -/
def readFullTag (cursor : Cursor) : Except Fault (TokenKind × Cursor) := do
  let (suffix, after) ← readTagSuffix cursor
  if after.rest.head? == some '>' then return (.tag "" suffix, after.drop 1)
  else after.fail .expectedTagEnd

/-- A tag without a whole handle belongs to the handle `!`, except that the mark
alone is a tag of its own. -/
def readShortTag (cursor : Cursor) : Except Fault (TokenKind × Cursor) := do
  let (handle, afterHandle) ← readHandle cursor
  if isWholeHandle handle then
    let (suffix, after) ← readTagSuffix afterHandle
    return (.tag (String.ofList handle) suffix, after)
  else
    let (text, after) ← readTagText afterHandle
    let suffix := String.ofList (handle.drop 1) ++ text
    return (if suffix.isEmpty then .tag "" "!" else .tag "!" suffix, after)

def readTag (cursor : Cursor) : Except Fault (TokenKind × Cursor) := do
  let (kind, after) ←
    if cursor.rest.tail.head? == some '<' then readFullTag (cursor.drop 2)
    else readShortTag cursor
  return (kind, ← expectSpacing after)

/-! ## Directives -/

/-- A number of one or two digits, `count` of which have been read. -/
def readVersionNumber (count value : Nat) (place : Place) (text : List Char) :
    Except Fault (Nat × Cursor) := do
  let place ← place.look 1 text
  match text with
  | [] =>
    if count == 0 then throw (.text place.line .expectedVersion)
    return (value, ⟨text, place⟩)
  | c :: rest =>
    if Text.isAsciiDigit c then
      if count == 2 then throw (.text place.line .longVersion)
      readVersionNumber (count + 1) (Nat.ofDigitChars 10 [c] value) place.next rest
    else
      if count == 0 then throw (.text place.line .expectedVersion)
      return (value, ⟨text, place⟩)

def readVersion (cursor : Cursor) : Except Fault (TokenKind × Cursor) := do
  let start ← cursor.dropWhile isBlank
  let (major, afterMajor) ← readVersionNumber 0 0 start.place start.rest
  if afterMajor.rest.head? != some '.' then afterMajor.fail .expectedPoint
  else
    let afterPoint := afterMajor.drop 1
    let (minor, after) ← readVersionNumber 0 0 afterPoint.place afterPoint.rest
    return (.version major minor, after)

def readTagHandle (cursor : Cursor) : Except Fault (TokenKind × Cursor) := do
  let start ← cursor.dropWhile isBlank
  let (handle, afterHandle) ← readHandle start
  if !isWholeHandle handle && handle != ['!'] then afterHandle.fail .expectedHandle
  else
    let atBlank ← afterHandle.look 1
    if !atBlank.rest.head?.any isBlank then atBlank.fail .expectedBlank
    else
      let (expansion, after) ← readTagSuffix (← atBlank.dropWhile isBlank)
      return (.handle (String.ofList handle) expansion, ← expectSpacing after)

/-- A directive after its percent sign, with the rest of its line. -/
def readDirective (cursor : Cursor) : Except Fault (TokenKind × Cursor) := do
  let (name, afterName) ← cursor.takeWhile isNameChar
  if name.isEmpty then afterName.fail .expectedDirective
  else if !startsSpacing afterName.rest then afterName.fail .badDirective
  else
    let (kind, after) ←
      if name == "YAML".toList then readVersion afterName
      else if name == "TAG".toList then readTagHandle afterName
      else afterName.fail .unknownDirective
    return (kind, ← after.dropLineEnd)

end ClassLang.Yaml
