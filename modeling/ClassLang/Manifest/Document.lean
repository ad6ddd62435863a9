import ClassLang.Manifest.Basic
import ClassLang.Yaml.Document
import ClassLang.Yaml.Printer

/-!
# Manifest documents

A manifest is kept as a document with an entry for each of its fields.  Other
entries are ignored, and of several entries for one field the last counts.  An
entry with the key `<<` holds a mapping, or a list of mappings, whose entries
count as if they stood in its place.  Every scalar is taken by its text, except
that an unquoted null leaves the field empty.  All values of a wrong shape are
reported together.
-/

namespace ClassLang

/-- A part of a document that cannot be taken for what is wanted there. -/
structure Mismatch where
  line : Nat
  found : String
  wanted : String
  deriving DecidableEq

inductive ManifestTextError where
  | malformed (fault : Yaml.Fault)
  /-- Something other than mappings under the key `<<`. -/
  | badMerge
  /-- A mapping that is merged into itself. -/
  | endlessMerge (name : String)
  /-- Almost all values are used by aliases. -/
  | excessiveAliases
  | tag (problem : Yaml.TagProblem)
  | mismatches (mismatches : List Mismatch)
  deriving DecidableEq

/-- Lines are shown counted from one. -/
def Mismatch.message (mismatch : Mismatch) : String :=
  "line " ++ Text.decimal (mismatch.line + 1) ++ ": cannot unmarshal " ++ mismatch.found
    ++ " into " ++ mismatch.wanted

def ManifestTextError.message (error : ManifestTextError) : String :=
  "reading " ++ Manifest.fileName ++ ": yaml: " ++
    match error with
    | .malformed fault => fault.message
    | .badMerge => "map merge requires map or sequence of maps as the value"
    | .endlessMerge name => "anchor '" ++ name ++ "' value contains itself"
    | .excessiveAliases => "document contains excessive aliasing"
    | .tag problem => problem.message
    | .mismatches found =>
      "unmarshal errors:\n  " ++ "\n  ".intercalate (found.map Mismatch.message)

namespace Manifest

/-! ## Fields -/

inductive Field where
  | package
  | version
  | extension
  deriving DecidableEq

def Field.key : Field → String
  | .package => "Package"
  | .version => "Version"
  | .extension => "Extension"

def Field.ofKey? (key : String) : Option Field :=
  [.package, .version, .extension].find? fun field => field.key == key

def setField (manifest : Manifest) (text : String) : Field → Manifest
  | .package => { manifest with package := text }
  | .version => { manifest with version := text }
  | .extension => { manifest with extension := text }

/-! ## Scalars -/

/-- A scalar as it is shown in messages.  A text of more than ten bytes is cut
to seven, unless the tag is that of a list or a mapping. -/
def scalarDescription (tag : String) (text : String) : String :=
  let bytes := text.toUTF8
  let shown := if bytes.size ≤ 10 then text else Text.decode (bytes.extract 0 7) ++ "..."
  Yaml.shortTag tag ++
    if [Yaml.coreTag ++ "seq", Yaml.coreTag ++ "map"].contains tag then text
    else " \x60" ++ shown ++ "\x60"

/-- The text that a scalar stands for, or nothing if it is a null. -/
def scalarText? (tag : String) (scalar : Yaml.Scalar) : Except ManifestTextError (Option String) :=
  Except.mapError ManifestTextError.tag do
    let type ← scalar.type tag
    let text ← scalar.content tag
    return if type == .null then none else some text

/-- The text of a scalar, or what is there in its place.  Aliases of aliases do
not exist. -/
def textOrMismatch : Yaml.Node → Except ManifestTextError (Except Mismatch String)
  | .scalar _ tag scalar => do return .ok ((← scalarText? tag scalar).getD "")
  | .sequence line _ => return .error ⟨line, "!!seq", "string"⟩
  | .mapping line _ => return .error ⟨line, "!!map", "string"⟩
  | .alias .. => return .ok ""

/-! ## Reading -/

/-- What a document as a whole is taken for. -/
def documentType : String := "main.moduleInfo"

/-- What has been read of a manifest. -/
structure Reading where
  manifest : Manifest
  mismatches : List Mismatch
  /-- The number of values so far, the document included. -/
  values : Nat
  /-- The number of those that are used by aliases. -/
  aliased : Nat

namespace Reading

def start : Reading := ⟨⟨"", "", ""⟩, [], 1, 0⟩

def refuse (reading : Reading) (mismatch : Mismatch) : Reading :=
  { reading with mismatches := reading.mismatches ++ [mismatch] }

/-- Whether more than 99 of 100 values are used by aliases, if there are many. -/
def isExcessive (reading : Reading) : Bool :=
  100 < reading.aliased && 1000 < reading.values && 99 * reading.values < 100 * reading.aliased

/-- Counts a value. -/
def visit (reading : Reading) (inAlias : Bool) : Except ManifestTextError Reading :=
  let visited := { reading with
    values := reading.values + 1, aliased := reading.aliased + inAlias.toNat }
  if visited.isExcessive then .error .excessiveAliases else .ok visited

/-- Takes a value for a text and counts it.  An alias counts as well as its target. -/
def textOf (document : Yaml.Document) (reading : Reading) (inAlias : Bool) (node : Yaml.Node) :
    Except ManifestTextError (Reading × Except Mismatch String) := do
  let reading ← reading.visit inAlias
  match node with
  | .alias _ _ target =>
    let reading ← reading.visit true
    return (reading, ← textOrMismatch (document.value target))
  | node => return (reading, ← textOrMismatch node)

def readEntry (document : Yaml.Document) (reading : Reading) (inAlias : Bool)
    (key value : Yaml.Node) : Except ManifestTextError Reading := do
  match ← textOf document reading inAlias key with
  | (reading, .error mismatch) => return reading.refuse mismatch
  | (reading, .ok key) =>
    match Field.ofKey? key with
    | none => return reading
    | some field =>
      match ← textOf document reading inAlias value with
      | (reading, .error mismatch) => return reading.refuse mismatch
      | (reading, .ok text) =>
        return { reading with manifest := setField reading.manifest text field }

/-- A null in place of a manifest empties all fields. -/
def readScalar (reading : Reading) (line : Nat) (tag : String) (scalar : Yaml.Scalar) :
    Except ManifestTextError Reading := do
  match ← scalarText? tag scalar with
  | none => return { reading with manifest := start.manifest }
  | some _ =>
    let type ← (scalar.type tag).mapError ManifestTextError.tag
    let shownTag := if tag.isEmpty then type.tag else tag
    return reading.refuse ⟨line, scalarDescription shownTag scalar.text, documentType⟩

/-- Whether a key stands for the entries of its value. -/
def isMergeKey : Yaml.Node → Bool
  | .scalar _ tag scalar =>
    scalar.text == "<<" && (scalar.isPlain || tag == Yaml.coreTag ++ "merge")
  | _ => false

/-- How the target of an alias is read, inside the aliases with the given numbers. -/
abbrev Follow := (active : List Nat) → Reading → (target : Nat) → Except ManifestTextError Reading

mutual

/-- Takes a value for a manifest, which adds to what has been read, inside the
aliases with the given numbers. -/
def readNode (document : Yaml.Document) (follow : Follow) (active : List Nat)
    (reading : Reading) (node : Yaml.Node) : Except ManifestTextError Reading := do
  let reading ← reading.visit (!active.isEmpty)
  match node with
  | .mapping _ entries => readEntries document follow active reading entries
  | .scalar line tag scalar => reading.readScalar line tag scalar
  | .sequence line _ => return reading.refuse ⟨line, "!!seq", documentType⟩
  | .alias name number target =>
    if active.contains number then throw (.endlessMerge name)
    follow (number :: active) reading target

def readEntries (document : Yaml.Document) (follow : Follow) (active : List Nat)
    (reading : Reading) : List (Yaml.Node × Yaml.Node) → Except ManifestTextError Reading
  | [] => .ok reading
  | (key, value) :: rest => do
    let reading ←
      if isMergeKey key then
        match value with
        | .sequence _ items => mergeItems document follow active reading items
        | value =>
          if document.isMapping value then readNode document follow active reading value
          else throw .badMerge
      else readEntry document reading (!active.isEmpty) key value
    readEntries document follow active reading rest

/-- Adds the entries of a list of mappings, the last mapping first, so that the
earlier ones count. -/
def mergeItems (document : Yaml.Document) (follow : Follow) (active : List Nat)
    (reading : Reading) : List Yaml.Node → Except ManifestTextError Reading
  | [] => .ok reading
  | item :: rest => do
    let reading ← mergeItems document follow active reading rest
    if document.isMapping item then readNode document follow active reading item
    else throw .badMerge

end

/-- Follows aliases inside one another to the given depth.  No alias is followed
inside itself, so the number of aliases is depth enough. -/
def followTo (document : Yaml.Document) : (depth : Nat) → Follow
  | 0, _, reading, _ => .ok reading
  | depth + 1, active, reading, target =>
    readNode document (followTo document depth) active reading (document.value target)

end Reading

def ofDocument (document : Yaml.Document) : Except ManifestTextError Manifest := do
  let follow := Reading.followTo document document.anchors.aliases
  let reading ← Reading.readNode document follow [] .start document.root
  if reading.mismatches.isEmpty then return reading.manifest
  else throw (.mismatches reading.mismatches)

def ofBytes (bytes : ByteArray) : Except ManifestTextError Manifest :=
  match Yaml.Document.ofBytes bytes with
  | .error fault => .error (.malformed fault)
  | .ok document => ofDocument document

/-- The document that holds a manifest.  An empty extension is left out. -/
def text (manifest : Manifest) : String :=
  Yaml.writeEntry "Package" manifest.package ++ Yaml.writeEntry "Version" manifest.version
    ++ (if manifest.extension.isEmpty then ""
        else Yaml.writeEntry "Extension" manifest.extension)

end Manifest

end ClassLang
