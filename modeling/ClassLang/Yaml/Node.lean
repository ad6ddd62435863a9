import ClassLang.Parser.Progress
import ClassLang.Yaml.Tokenizer

/-!
# Values of a document

A document holds one value: a scalar, a list, or a mapping from values to
values.  A value that is named by an anchor can be used again by an alias, even
inside itself.  So named values are numbered, and an alias holds the number of
the value that had its name last.
-/

namespace ClassLang.Yaml

open ClassLang.Parser (Parsed Continued)

/-- Lines are counted from zero. -/
inductive Node where
  | scalar (line : Nat) (tag : String) (scalar : Scalar)
  | sequence (line : Nat) (items : List Node)
  | mapping (line : Nat) (entries : List (Node × Node))
  /-- The aliases of a document are numbered too. -/
  | alias (name : String) (number target : Nat)

/-- What has been named and used again so far. -/
structure Anchors where
  /-- The numbers that names stand for, the latest first. -/
  numbers : List (String × Nat)
  /-- The values that are complete, with their numbers. -/
  values : List (Nat × Node)
  /-- How many values have been named. -/
  count : Nat
  /-- How many aliases there are. -/
  aliases : Nat

/-- What is the same all over a document. -/
structure Context where
  /-- What to report if the tokens run out. -/
  stop : Fault
  /-- What the handles of tags stand for. -/
  handles : List (String × String)

/-- Where a value stands. -/
inductive Setting where
  | flow
  | block
  /-- In a mapping outside brackets, where the entries of a list need not be
  indented. -/
  | entry
  deriving DecidableEq

/-! ## Properties -/

structure Properties where
  anchor : Option String
  /-- The handle, the suffix and the line of the tag. -/
  tag : Option (String × String × Nat)
  /-- The line of the first property. -/
  line : Nat

/-- An anchor and a tag in either order. -/
def properties : (tokens : List Token) → Option (Parsed Properties tokens)
  | ⟨.anchor name, line⟩ :: ⟨.tag handle suffix, tagLine⟩ :: rest =>
    some ⟨⟨some name, some (handle, suffix, tagLine), line⟩, rest, by
      simp only [List.length_cons]; omega⟩
  | ⟨.tag handle suffix, line⟩ :: ⟨.anchor name, _⟩ :: rest =>
    some ⟨⟨some name, some (handle, suffix, line), line⟩, rest, by
      simp only [List.length_cons]; omega⟩
  | ⟨.anchor name, line⟩ :: rest => some ⟨⟨some name, none, line⟩, rest, by simp⟩
  | ⟨.tag handle suffix, line⟩ :: rest =>
    some ⟨⟨none, some (handle, suffix, line), line⟩, rest, by simp⟩
  | _ => none

/-- The tag in full.  Without a handle the suffix is all of it. -/
def Context.tagText (context : Context) : Option (String × String × Nat) → Except Fault String
  | none => .ok ""
  | some (handle, suffix, line) =>
    if handle.isEmpty then .ok suffix
    else match context.handles.lookup handle with
      | some expansion => .ok (expansion ++ suffix)
      | none => .error (.token line .undefinedHandle)

/-! ## Anchors -/

namespace Anchors

def empty : Anchors := ⟨[], [], 0, 0⟩

/-- Gives the next number to a name, if there is one. -/
def reserve (anchors : Anchors) (name : Option String) : Anchors :=
  match name with
  | some name =>
    { anchors with
      numbers := (name, anchors.count) :: anchors.numbers, count := anchors.count + 1 }
  | none => anchors

/-- Adds the value of a number that has been given to a name. -/
def complete (anchors : Anchors) (name : Option String) (number : Nat) (node : Node) : Anchors :=
  if name.isSome then { anchors with values := (number, node) :: anchors.values } else anchors

/-- Names a value that has no parts. -/
def add (anchors : Anchors) (name : Option String) (node : Node) : Anchors :=
  (anchors.reserve name).complete name anchors.count node

/-- An alias of a name. -/
def alias? (anchors : Anchors) (name : String) : Option (Node × Anchors) :=
  (anchors.numbers.lookup name).map fun target =>
    (.alias name anchors.aliases target, { anchors with aliases := anchors.aliases + 1 })

/-- The value that had a name last. -/
def last? (anchors : Anchors) (name : String) : Option Node := do
  anchors.values.lookup (← anchors.numbers.lookup name)

end Anchors

/-! ## Values -/

def nothingAt (line : Nat) : Node :=
  .scalar line "" .nothing

/-- Goes past the comma before an item between brackets, unless the item is the
first or there is none. -/
def afterComma (context : Context) (isFirst : Bool) (closing : TokenKind) (problem : TokenProblem) :
    (tokens : List Token) → Except Fault (Continued Unit tokens)
  | [] => .error context.stop
  | token :: rest =>
    if isFirst || token.kind == closing then .ok ⟨(), token :: rest, Nat.le_refl _⟩
    else if token.kind == .comma then .ok ⟨(), rest, by simp⟩
    else .error (.token token.line problem)

/-- A result that stands for the value as well as what it names. -/
abbrev Named (α : Type) := α × Anchors

mutual

/-- A value, which takes at least one token. -/
def readNode (context : Context) (setting : Setting) (anchors : Anchors) (tokens : List Token) :
    Except Fault (Parsed (Named Node) tokens) :=
  match tokens with
  | [] => .error context.stop
  | token :: rest =>
    match token.kind with
    | .alias name =>
      match anchors.alias? name with
      | some result => .ok ⟨result, rest, by simp⟩
      | none => .error (.unknownAnchor name)
    | _ =>
      match properties (token :: rest) with
      | some ⟨found, afterProperties, hproperties⟩ => do
        if afterProperties.isEmpty then throw context.stop
        let tag ← context.tagText found.tag
        match ← readContent context setting found.anchor found.line tag anchors afterProperties with
        | some ⟨result, after, _⟩ => return ⟨result, after, by omega⟩
        | none =>
          let node := Node.scalar found.line tag ⟨"", tag.isEmpty⟩
          return ⟨(node, anchors.add found.anchor node), afterProperties, hproperties⟩
      | none => do
        match ← readContent context setting none token.line "" anchors (token :: rest) with
        | some result => return result
        | none => throw (.token token.line .expectedContent)
termination_by 5 * tokens.length + 2
decreasing_by all_goals simp only [List.length_cons] at *; omega

/-- The value after its properties, if there is more of it. -/
def readContent (context : Context) (setting : Setting) (name : Option String) (line : Nat)
    (tag : String) (anchors : Anchors) (tokens : List Token) :
    Except Fault (Option (Parsed (Named Node) tokens)) :=
  match tokens with
  | [] => .error context.stop
  | token :: rest =>
    let number := anchors.count
    let reserved := anchors.reserve name
    match token.kind with
    | .scalar scalar =>
      let isPlain := tag == "!" || (tag.isEmpty && scalar.isPlain)
      let node := Node.scalar line tag ⟨scalar.text, isPlain⟩
      .ok (some ⟨(node, anchors.add name node), rest, by simp⟩)
    | .openSequence => do
      let ⟨(items, anchors), after, _⟩ ← readItems context true reserved rest
      let node := Node.sequence line items
      return some
        ⟨(node, anchors.complete name number node), after, by simp only [List.length_cons]; omega⟩
    | .openMapping => do
      let ⟨(entries, anchors), after, _⟩ ← readPairs context true reserved rest
      let node := Node.mapping line entries
      return some
        ⟨(node, anchors.complete name number node), after, by simp only [List.length_cons]; omega⟩
    | .entry =>
      if setting == .entry then do
        let ⟨(items, anchors), after, _⟩ ← readEntries context false reserved rest
        let node := Node.sequence line items
        return some
          ⟨(node, anchors.complete name number node), after, by simp only [List.length_cons]; omega⟩
      else return none
    | .sequenceStart =>
      if setting == .flow then return none
      else
        match rest with
        | [] => .error context.stop
        | first :: afterFirst => do
          if first.kind != .entry then throw (.token first.line .expectedEntry)
          let ⟨(items, anchors), after, _⟩ ← readEntries context true reserved afterFirst
          let node := Node.sequence line items
          return some ⟨(node, anchors.complete name number node), after, by
            simp only [List.length_cons]; omega⟩
    | .mappingStart =>
      if setting == .flow then return none
      else do
        let ⟨(entries, anchors), after, _⟩ ← readLines context reserved rest
        let node := Node.mapping line entries
        return some
          ⟨(node, anchors.complete name number node), after, by simp only [List.length_cons]; omega⟩
    | _ => return none
termination_by 5 * tokens.length + 1
decreasing_by all_goals simp only [List.length_cons] at *; omega

/-- A value that is empty where one of the given tokens comes next. -/
def readOptional (context : Context) (setting : Setting) (enders : List TokenKind)
    (anchors : Anchors) (tokens : List Token) :
    Except Fault (Continued (Named Node) tokens) :=
  match tokens with
  | [] => .error context.stop
  | token :: rest =>
    if enders.contains token.kind then
      .ok ⟨(nothingAt token.line, anchors), token :: rest, Nat.le_refl _⟩
    else do
      let ⟨result, after, hafter⟩ ← readNode context setting anchors (token :: rest)
      return ⟨result, after, Nat.le_of_lt hafter⟩
termination_by 5 * tokens.length + 3

/-- The value of a key, which is empty without a colon. -/
def readValue (context : Context) (setting : Setting) (enders : List TokenKind)
    (anchors : Anchors) (tokens : List Token) :
    Except Fault (Continued (Named Node) tokens) :=
  match tokens with
  | [] => .error context.stop
  | token :: rest =>
    if token.kind == .value then do
      let ⟨result, after, _⟩ ← readOptional context setting enders anchors rest
      return ⟨result, after, by simp only [List.length_cons]; omega⟩
    else .ok ⟨(nothingAt token.line, anchors), token :: rest, Nat.le_refl _⟩
termination_by 5 * tokens.length + 4
decreasing_by all_goals simp only [List.length_cons] at *; omega

/-- The items of a list outside brackets, after the dash of the first. -/
def readEntries (context : Context) (isIndented : Bool) (anchors : Anchors)
    (tokens : List Token) : Except Fault (Continued (Named (List Node)) tokens) := do
  let enders := if isIndented then [.entry, .blockEnd] else [.entry, .key, .value, .blockEnd]
  match ← readOptional context .block enders anchors tokens with
  | ⟨_, [], _⟩ => throw context.stop
  | ⟨(item, anchors), token :: rest, hitem⟩ =>
    if token.kind == .entry then do
      let ⟨(items, anchors), after, _⟩ ← readEntries context isIndented anchors rest
      return ⟨(item :: items, anchors), after, by simp only [List.length_cons] at hitem; omega⟩
    else if !isIndented then return ⟨([item], anchors), token :: rest, hitem⟩
    else if token.kind == .blockEnd then
      return ⟨([item], anchors), rest, by simp only [List.length_cons] at hitem; omega⟩
    else throw (.token token.line .expectedEntry)
termination_by 5 * tokens.length + 4
decreasing_by
  · omega
  · simp only [List.length_cons] at hitem
    omega

/-- The entries of a mapping outside brackets. -/
def readLines (context : Context) (anchors : Anchors) (tokens : List Token) :
    Except Fault (Continued (Named (List (Node × Node))) tokens) :=
  match tokens with
  | [] => .error context.stop
  | token :: rest =>
    let enders : List TokenKind := [.key, .value, .blockEnd]
    if token.kind == .key then do
      let ⟨(key, anchors), afterKey, _⟩ ← readOptional context .entry enders anchors rest
      let ⟨(value, anchors), afterValue, _⟩ ← readValue context .entry enders anchors afterKey
      let ⟨(entries, anchors), after, _⟩ ← readLines context anchors afterValue
      return ⟨((key, value) :: entries, anchors), after, by simp only [List.length_cons]; omega⟩
    else if token.kind == .blockEnd then .ok ⟨([], anchors), rest, by simp⟩
    else .error (.token token.line .expectedKey)
termination_by 5 * tokens.length + 4
decreasing_by all_goals simp only [List.length_cons] at *; omega

/-- The items of a list in brackets, up to the closing one. -/
def readItems (context : Context) (isFirst : Bool) (anchors : Anchors) (tokens : List Token) :
    Except Fault (Continued (Named (List Node)) tokens) := do
  match ← afterComma context isFirst .closeSequence .unclosedSequence tokens with
  | ⟨_, [], _⟩ => throw context.stop
  | ⟨_, token :: rest, hstart⟩ =>
    if token.kind == .closeSequence then
      return ⟨([], anchors), rest, by simp only [List.length_cons] at hstart; omega⟩
    else do
      let ⟨(item, anchors), afterItem, _⟩ ← readItem context anchors (token :: rest)
      let ⟨(items, anchors), after, _⟩ ← readItems context false anchors afterItem
      return ⟨(item :: items, anchors), after, by omega⟩
termination_by 5 * tokens.length + 4
decreasing_by all_goals simp only [List.length_cons] at *; omega

/-- An item of a list in brackets, which may be a mapping with a single entry
and no brackets of its own. -/
def readItem (context : Context) (anchors : Anchors) (tokens : List Token) :
    Except Fault (Parsed (Named Node) tokens) :=
  match tokens with
  | [] => .error context.stop
  | token :: rest =>
    if token.kind == .key then do
      let ⟨(key, anchors), afterKey, _⟩ ← readItemKey context anchors rest
      let ⟨(value, anchors), after, _⟩ ←
        readValue context .flow [.comma, .closeSequence] anchors afterKey
      return ⟨(.mapping token.line [(key, value)], anchors), after, by
        simp only [List.length_cons]; omega⟩
    else readNode context .flow anchors (token :: rest)
termination_by 5 * tokens.length + 3
decreasing_by all_goals simp only [List.length_cons] at *; omega

/-- The key of such a mapping.  The token that shows that it is empty is lost. -/
def readItemKey (context : Context) (anchors : Anchors) (tokens : List Token) :
    Except Fault (Continued (Named Node) tokens) :=
  match tokens with
  | [] => .error context.stop
  | token :: rest =>
    if [.value, .comma, .closeSequence].contains token.kind then
      .ok ⟨(nothingAt token.line, anchors), rest, by simp⟩
    else do
      let ⟨result, after, hafter⟩ ← readNode context .flow anchors (token :: rest)
      return ⟨result, after, Nat.le_of_lt hafter⟩
termination_by 5 * tokens.length + 3

/-- The entries of a mapping in braces, up to the closing one. -/
def readPairs (context : Context) (isFirst : Bool) (anchors : Anchors) (tokens : List Token) :
    Except Fault (Continued (Named (List (Node × Node))) tokens) := do
  match ← afterComma context isFirst .closeMapping .unclosedMapping tokens with
  | ⟨_, [], _⟩ => throw context.stop
  | ⟨_, token :: rest, hstart⟩ =>
    if token.kind == .closeMapping then
      return ⟨([], anchors), rest, by simp only [List.length_cons] at hstart; omega⟩
    else do
      let ⟨(entry, anchors), afterEntry, _⟩ ← readPair context anchors (token :: rest)
      let ⟨(entries, anchors), after, _⟩ ← readPairs context false anchors afterEntry
      return ⟨(entry :: entries, anchors), after, by omega⟩
termination_by 5 * tokens.length + 4
decreasing_by all_goals simp only [List.length_cons] at *; omega

/-- An entry of a mapping in braces.  A key may stand alone. -/
def readPair (context : Context) (anchors : Anchors) (tokens : List Token) :
    Except Fault (Parsed (Named (Node × Node)) tokens) :=
  match tokens with
  | [] => .error context.stop
  | token :: rest =>
    if token.kind == .key then do
      let ⟨(key, anchors), afterKey, _⟩ ←
        readOptional context .flow [.value, .comma, .closeMapping] anchors rest
      let ⟨(value, anchors), after, _⟩ ←
        readValue context .flow [.comma, .closeMapping] anchors afterKey
      return ⟨((key, value), anchors), after, by simp only [List.length_cons]; omega⟩
    else do
      let ⟨(key, anchors), after, hafter⟩ ← readNode context .flow anchors (token :: rest)
      return ⟨((key, nothingAt token.line), anchors), after, hafter⟩
termination_by 5 * tokens.length + 3
decreasing_by all_goals simp only [List.length_cons] at *; omega

end

end ClassLang.Yaml
