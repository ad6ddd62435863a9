import ClassLang.Adt.Basic
import ClassLang.Adt.Symbol
import ClassLang.Parser.Progress

/-!
# Parsing declarations

The next symbol always decides how to go on.  The words `type` and `of` have a
meaning only where they are looked for; elsewhere they are names like others.
A word or a mark that is looked for may also be a literal.
-/

namespace ClassLang.Adt

open ClassLang.Parser (Parsed Continued)

def nameAt? : (symbols : List Symbol) → Option (Parsed String symbols)
  | [] => none
  | symbol :: rest => if symbol.isName then some ⟨symbol.text, rest, by simp⟩ else none

/-- The symbols after one with the given text, which has to come next. -/
def expect? (text : String) : (symbols : List Symbol) → Option (Parsed Unit symbols)
  | [] => none
  | symbol :: rest => if symbol.text == text then some ⟨(), rest, by simp⟩ else none

/-- Whether a pair of square brackets, or nothing, comes next. -/
def sliceMark? (symbols : List Symbol) : Option (Continued Bool symbols) :=
  match expect? "[" symbols with
  | none => some ⟨false, symbols, Nat.le_refl _⟩
  | some ⟨_, afterOpening, _⟩ => do
    let ⟨_, rest, _⟩ ← expect? "]" afterOpening
    return ⟨true, rest, by omega⟩

/-- Whether a star comes next. -/
def pointerMark (symbols : List Symbol) : Continued Bool symbols :=
  match expect? "*" symbols with
  | some ⟨_, rest, hrest⟩ => ⟨true, rest, Nat.le_of_lt hrest⟩
  | none => ⟨false, symbols, Nat.le_refl _⟩

def typeRef? (symbols : List Symbol) : Option (Parsed TypeRef symbols) := do
  let ⟨isSlice, afterSlice, _⟩ ← sliceMark? symbols
  let ⟨isPointer, afterPointer, _⟩ := pointerMark afterSlice
  let ⟨name, rest, _⟩ ← nameAt? afterPointer
  return ⟨⟨isSlice, isPointer, name⟩, rest, by omega⟩

/-- A member, which a semicolon may follow. -/
def member? (symbols : List Symbol) : Option (Parsed Member symbols) := do
  let ⟨name, afterName, _⟩ ← nameAt? symbols
  let ⟨type, afterType, _⟩ ← typeRef? afterName
  match expect? ";" afterType with
  | some ⟨_, rest, _⟩ => return ⟨⟨name, type⟩, rest, by omega⟩
  | none => return ⟨⟨name, type⟩, afterType, by omega⟩

/-- The members up to the closing brace. -/
def members? (symbols : List Symbol) : Option (Parsed (List Member) symbols) :=
  match expect? "\x7d" symbols with
  | some ⟨_, rest, hrest⟩ => some ⟨[], rest, hrest⟩
  | none => do
    let ⟨member, afterMember, _⟩ ← member? symbols
    let ⟨members, rest, _⟩ ← members? afterMember
    return ⟨member :: members, rest, by omega⟩
termination_by symbols.length

/-- A type, or members in braces. -/
def payload? (symbols : List Symbol) : Option (Parsed Payload symbols) :=
  match expect? "\x7b" symbols with
  | some ⟨_, afterBrace, _⟩ => do
    let ⟨members, rest, _⟩ ← members? afterBrace
    return ⟨.record members, rest, by omega⟩
  | none => do
    let ⟨type, rest, hrest⟩ ← typeRef? symbols
    return ⟨.value type, rest, hrest⟩

/-- A case after its bar. -/
def case? (symbols : List Symbol) : Option (Parsed Case symbols) := do
  let ⟨name, afterName, _⟩ ← nameAt? symbols
  match expect? "of" afterName with
  | some ⟨_, afterOf, _⟩ =>
    let ⟨payload, rest, _⟩ ← payload? afterOf
    return ⟨⟨name, payload⟩, rest, by omega⟩
  | none => return ⟨⟨name, .record []⟩, afterName, by omega⟩

/-- As many cases as there are bars. -/
def cases? (symbols : List Symbol) : Option (Continued (List Case) symbols) :=
  match expect? "|" symbols with
  | none => some ⟨[], symbols, Nat.le_refl _⟩
  | some ⟨_, afterBar, _⟩ => do
    let ⟨first, afterCase, _⟩ ← case? afterBar
    let ⟨others, rest, _⟩ ← cases? afterCase
    return ⟨first :: others, rest, by omega⟩
termination_by symbols.length

def body? (symbols : List Symbol) : Option (Continued Body symbols) := do
  let ⟨cases, afterCases, hcases⟩ ← cases? symbols
  if cases.isEmpty then
    let ⟨payload, rest, hrest⟩ ← payload? symbols
    match payload with
    | .value type => return ⟨.synonym type, rest, Parser.notLonger_of_shorter hrest⟩
    | .record members => return ⟨.record members, rest, Parser.notLonger_of_shorter hrest⟩
  else return ⟨.sum cases, afterCases, hcases⟩

def declaration? (symbols : List Symbol) : Option (Parsed Declaration symbols) := do
  let ⟨_, afterType, _⟩ ← expect? "type" symbols
  let ⟨name, afterName, _⟩ ← nameAt? afterType
  let ⟨_, afterEquals, _⟩ ← expect? "=" afterName
  let ⟨body, afterBody, _⟩ ← body? afterEquals
  let ⟨_, rest, _⟩ ← expect? ";" afterBody
  return ⟨⟨name, body⟩, rest, by omega⟩

def declarations? (symbols : List Symbol) : Option (List Declaration) :=
  if symbols.isEmpty then some []
  else do
    let ⟨first, rest, _⟩ ← declaration? symbols
    let others ← declarations? rest
    return first :: others
termination_by symbols.length

/-- The declarations in a file, which has to be UTF-8. -/
def ofBytes? (bytes : ByteArray) : Option (List Declaration) := do
  let text ← String.fromUTF8? bytes
  let symbols ← fileSymbols? text.toList
  declarations? symbols

end ClassLang.Adt
