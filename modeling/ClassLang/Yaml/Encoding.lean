import ClassLang.Yaml.Character
import ClassLang.Yaml.View

/-!
# Bytes of a document

A document is text without control characters other than tabs and line breaks.
It is UTF-8, unless a byte order mark at its start says that it is UTF-16.  Bytes
are judged a chunk at a time, and of a chunk in which something is wrong no
character is read.
-/

namespace ClassLang.Yaml

inductive Encoding where
  | utf8
  | utf16 (isBigEndian : Bool)

/-! ## UTF-8 -/

/-- The number of bytes that a lead byte announces, and the bits that it adds
itself. -/
def leadParts? (lead : Nat) : Option (Nat × Nat) :=
  if lead < 0x80 then some (1, lead)
  else if 0xC0 ≤ lead && lead < 0xE0 then some (2, lead % 32)
  else if 0xE0 ≤ lead && lead < 0xF0 then some (3, lead % 16)
  else if 0xF0 ≤ lead && lead < 0xF8 then some (4, lead % 8)
  else none

/-- The least code that needs the given number of bytes. -/
def leastCode : Nat → Nat
  | 2 => 0x80
  | 3 => 0x800
  | 4 => 0x10000
  | _ => 0

/-- The character at the front of bytes that are UTF-8. -/
def utf8Char (bytes : List UInt8) : Except EncodingProblem Char := do
  let some (width, bits) := leadParts? (bytes.headD 0).toNat | throw .badLead
  let tail := (bytes.take width).drop 1
  if tail.length + 1 < width then throw .incomplete
  if tail.any fun byte => byte.toNat / 64 != 2 then throw .badTail
  let code := tail.foldl (fun code byte => code * 64 + byte.toNat % 64) bits
  if code < leastCode width then throw .badLength
  if !code.isValidChar then throw .badCode
  return Char.ofNat code

/-! ## UTF-16 -/

def unit (isBigEndian : Bool) (first second : UInt8) : Nat :=
  if isBigEndian then first.toNat * 256 + second.toNat else second.toNat * 256 + first.toNat

/-- Whether a unit is the first half of a character. -/
def isHighHalf (unit : Nat) : Bool := unit / 1024 == 0xD800 / 1024

def isLowHalf (unit : Nat) : Bool := unit / 1024 == 0xDC00 / 1024

/-- The character at the front of bytes that are UTF-16. -/
def utf16Char (isBigEndian : Bool) : List UInt8 → Except EncodingProblem Char
  | first :: second :: rest =>
    let high := unit isBigEndian first second
    if isLowHalf high then .error .lowHalf
    else if !isHighHalf high then .ok (Char.ofNat high)
    else
      match rest with
      | third :: fourth :: _ =>
        let low := unit isBigEndian third fourth
        if isLowHalf low then .ok (Char.ofNat (0x10000 + high % 1024 * 1024 + low % 1024))
        else .error .noLowHalf
      | _ => .error .incompletePair
  | _ => .error .incompleteUnit

/-! ## Documents -/

/-- The encoding that the first bytes tell, and the number of bytes of the mark. -/
def encodingOf : List UInt8 → Encoding × Nat
  | 0xFF :: 0xFE :: _ => (.utf16 false, 2)
  | 0xFE :: 0xFF :: _ => (.utf16 true, 2)
  | 0xEF :: 0xBB :: 0xBF :: _ => (.utf8, 3)
  | _ => (.utf8, 0)

/-- The number of bytes by which the first character is judged. -/
def Encoding.width (encoding : Encoding) (bytes : List UInt8) : Nat :=
  match encoding, bytes with
  | .utf8, byte :: _ => (leadParts? byte.toNat).elim 1 Prod.fst
  | .utf16 isBigEndian, first :: second :: _ =>
    if isHighHalf (unit isBigEndian first second) then 4 else 2
  | _, _ => 2

def Encoding.char (encoding : Encoding) (bytes : List UInt8) : Except EncodingProblem Char := do
  let c ← match encoding with
    | .utf8 => utf8Char bytes
    | .utf16 isBigEndian => utf16Char isBigEndian bytes
  if isAllowed c then return c else throw .controlCharacter

def chunkSize : Nat := 512

/-- The characters of the chunks, and what is wrong with the bytes after them.
Of the bytes, `room` belong to the chunk that has been started, and the
characters of that chunk so far are given in reverse.  A character that is not
all in a chunk is the first of the next one. -/
def readChunks (encoding : Encoding) (chunk : List Char) (room : Nat) (bytes : List UInt8) :
    List (List Char) × Option EncodingProblem :=
  match bytes with
  | [] => ([chunk.reverse], none)
  | byte :: rest =>
    let width := encoding.width (byte :: rest)
    let isSplit := room < width || ((byte :: rest).drop (width - 1)).isEmpty
    let ended := if isSplit then [chunk.reverse] else []
    match encoding.char (byte :: rest) with
    | .error problem => (ended, some problem)
    | .ok c =>
      let chunk := if isSplit then [c] else c :: chunk
      let room := if isSplit then chunkSize - width else room - width
      let (chunks, problem) := readChunks encoding chunk room (rest.drop (width - 1))
      (ended ++ chunks, problem)
termination_by bytes.length
decreasing_by
  simp only [List.length_drop, List.length_cons]
  omega

/-- The numbers of characters up to the ends of chunks, with the given number of
characters before them. -/
def chunkEnds (count : Nat) : List (List Char) → List Nat
  | [] => []
  | chunk :: chunks => (count + chunk.length) :: chunkEnds (count + chunk.length) chunks

/-- A document as far as its bytes are text. -/
structure Source where
  text : List Char
  view : View

namespace Source

def ofChunks (chunks : List (List Char)) (problem : Option EncodingProblem) : Source :=
  ⟨chunks.flatten, .chunks ⟨false, 0, chunkEnds 0 chunks, problem.map Fault.encoding⟩⟩

def withoutOrderMark (text : List Char) : List Char :=
  match text with
  | '\ufeff' :: rest => rest
  | text => text

/-- Whether characters need no attention to how they come into view. -/
def isOrdinary (text : List Char) : Bool :=
  text.all fun c => isAllowed c && c != '\ufeff'

/-- The characters of a document. -/
def ofBytes (bytes : ByteArray) : Source :=
  match ((String.fromUTF8? bytes).map fun text => withoutOrderMark text.toList).filter isOrdinary
  with
  | some text => ⟨text, .whole⟩
  | none =>
    let (encoding, markBytes) := encodingOf bytes.toList
    let (chunks, problem) :=
      readChunks encoding [] (chunkSize - markBytes) (bytes.toList.drop markBytes)
    ofChunks chunks problem

end Source

end ClassLang.Yaml
