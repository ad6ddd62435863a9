import ClassLang.Proofs.Runs
import ClassLang.Proofs.WrittenEntries
import Mathlib.Data.List.Forall2

/-!
# Manifests that are written and read

The document of a manifest has one entry for each field that is written.  What is
read from it is the manifest: no field is taken for anything but a text, whatever
its characters are.
-/

namespace ClassLang

namespace Yaml

open Tokenizer

/-! ## Values -/

section Values

variable (context : Context) (setting : Setting) (anchors : Anchors) (line : Nat)
  (scalar : Scalar) (rest : List Token)

theorem readContent_scalar :
    readContent context setting none line "" anchors (⟨.scalar scalar, line⟩ :: rest) =
      .ok (some ⟨(.scalar line "" scalar, anchors), rest, Nat.lt_succ_self _⟩) := by
  rw [readContent.eq_def]
  rfl

/-- A scalar without properties is a node. -/
theorem readNode_scalar :
    readNode context setting anchors (⟨.scalar scalar, line⟩ :: rest) =
      .ok ⟨(.scalar line "" scalar, anchors), rest, Nat.lt_succ_self _⟩ := by
  rw [readNode]
  simp only [properties, readContent_scalar, ok_bind]
  rfl

theorem readOptional_scalar {enders : List TokenKind}
    (henders : enders.contains (.scalar scalar) = false) :
    readOptional context setting enders anchors (⟨.scalar scalar, line⟩ :: rest) =
      .ok ⟨(.scalar line "" scalar, anchors), rest, Nat.le_succ _⟩ := by
  rw [readOptional]
  simp only [henders, readNode_scalar, ok_bind]
  rfl

/-- The value of a key is the scalar after the colon. -/
theorem readValue_scalar {enders : List TokenKind}
    (henders : enders.contains (.scalar scalar) = false) (colonLine : Nat) :
    readValue context setting enders anchors
        (⟨.value, colonLine⟩ :: ⟨.scalar scalar, line⟩ :: rest) =
      .ok ⟨(.scalar line "" scalar, anchors), rest, Nat.le_add_right _ 2⟩ := by
  rw [readValue]
  simp only [readOptional_scalar context setting anchors line scalar rest henders, ok_bind]
  rfl

end Values

/-- The scalars of an entry. -/
def IsEntry (entry : String × String) (nodes : Node × Node) : Prop :=
  ∃ keyLine line, nodes =
    (.scalar keyLine "" ⟨entry.1, true⟩, .scalar line "" (writtenScalar entry.2))

/-- The tokens of an entry: the key and the value, each after its mark. -/
theorem exists_tokens_of_entry {entry : String × String} {tokens : List Token}
    {kinds : List TokenKind} (hkinds : tokens.map Token.kind = entryKinds entry ++ kinds) :
    ∃ line keyLine colonLine valueLine rest,
      tokens = ⟨.key, line⟩ :: ⟨.scalar ⟨entry.1, true⟩, keyLine⟩ :: ⟨.value, colonLine⟩ ::
        ⟨.scalar (writtenScalar entry.2), valueLine⟩ :: rest ∧ rest.map Token.kind = kinds := by
  simp only [entryKinds, List.cons_append, List.nil_append, List.map_eq_cons_iff] at hkinds
  obtain ⟨⟨_, line⟩, _, rfl, rfl, ⟨_, keyLine⟩, _, rfl, rfl, ⟨_, colonLine⟩, _, rfl, rfl,
    ⟨_, valueLine⟩, rest, rfl, rfl, hrest⟩ := hkinds
  exact ⟨line, keyLine, colonLine, valueLine, rest, rfl, hrest⟩

/-- The lines of a block are read as the entries that they were written from. -/
theorem readLines_entries (context : Context) {entries : List (String × String)}
    {tokens : List Token} {after : List TokenKind}
    (hkinds : tokens.map Token.kind = entries.flatMap entryKinds ++ .blockEnd :: after) :
    ∃ nodes rest hrest, readLines context .empty tokens = .ok ⟨(nodes, .empty), rest, hrest⟩ ∧
      rest.map Token.kind = after ∧ List.Forall₂ IsEntry entries nodes := by
  have henders : ∀ scalar,
      List.contains [.key, .value, .blockEnd] (TokenKind.scalar scalar) = false :=
    fun _ => rfl
  induction entries generalizing tokens with
  | nil =>
    obtain ⟨⟨_, line⟩, rest, rfl, rfl, hrest⟩ := List.map_eq_cons_iff.mp hkinds
    refine ⟨[], rest, Nat.le_succ _, ?_, hrest, .nil⟩
    rw [readLines]
    rfl
  | cons entry entries ih =>
    rw [List.flatMap_cons, List.append_assoc] at hkinds
    obtain ⟨line, keyLine, colonLine, valueLine, others, rfl, hothers⟩ :=
      exists_tokens_of_entry hkinds
    obtain ⟨nodes, rest, hrest, hread, hafter, hnodes⟩ := ih hothers
    have hkey := readOptional_scalar context .entry .empty keyLine ⟨entry.1, true⟩
      (⟨.value, colonLine⟩ :: ⟨.scalar (writtenScalar entry.2), valueLine⟩ :: others)
      (henders ⟨entry.1, true⟩)
    have hvalue := readValue_scalar context .entry .empty valueLine (writtenScalar entry.2) others
      (henders (writtenScalar entry.2)) colonLine
    refine ⟨_, rest, Nat.le_trans hrest (Nat.le_add_right _ 4), ?_, hafter,
      .cons ⟨keyLine, valueLine, rfl⟩ hnodes⟩
    rw [readLines]
    simp only [beq_self_eq_true, if_true, hkey, hvalue, hread, ok_bind]
    rfl

/-- The document of written entries. -/
theorem Document.ofTokens_entries {entries : List (String × String)} {tokens : Tokens}
    (hkinds : tokens.tokens.map Token.kind =
      .mappingStart :: entries.flatMap entryKinds ++ [.blockEnd, .textEnd]) :
    ∃ line nodes, Document.ofTokens tokens = .ok ⟨.mapping line nodes, .empty⟩ ∧
      List.Forall₂ IsEntry entries nodes := by
  obtain ⟨tokens, stop⟩ := tokens
  obtain ⟨⟨_, line⟩, others, rfl, rfl, hothers⟩ := List.map_eq_cons_iff.mp hkinds
  obtain ⟨nodes, rest, hrest, hread, hafter, hnodes⟩ :=
    readLines_entries ⟨stop, defaultHandles⟩ hothers
  refine ⟨line, nodes, ?_, hnodes⟩
  have hcontent : readContent ⟨stop, defaultHandles⟩ .block none line "" .empty
      (⟨.mappingStart, line⟩ :: others) =
      .ok (some ⟨(.mapping line nodes, .empty), rest, Nat.lt_succ_of_le hrest⟩) := by
    rw [readContent.eq_def]
    simp only [Anchors.reserve, hread]
    rfl
  have hnode : readNode ⟨stop, defaultHandles⟩ .block .empty (⟨.mappingStart, line⟩ :: others) =
      .ok ⟨(.mapping line nodes, .empty), rest, Nat.lt_succ_of_le hrest⟩ := by
    rw [readNode]
    simp only [properties, hcontent, ok_bind]
    rfl
  have hmore : rest.isEmpty = false := by
    cases rest with
    | nil => cases hafter
    | cons token rest => rfl
  have hdocument : readDocument ⟨stop, defaultHandles⟩ (⟨.mappingStart, line⟩ :: others) =
      .ok ⟨.mapping line nodes, .empty⟩ := by
    rw [readDocument, hnode, ok_bind]
    simp only [hmore]
    rfl
  exact hdocument

end Yaml

namespace Manifest

open Yaml (AreLines IsEntry IsOneLine entriesText writtenScalar)

/-! ## Fields -/

/-- The fields that are written, with their texts. -/
def writtenFields (manifest : Manifest) : List (Field × String) :=
  [(.package, manifest.package), (.version, manifest.version)] ++
    if manifest.extension.isEmpty then [] else [(.extension, manifest.extension)]

def Field.entry (field : Field × String) : String × String :=
  (field.1.key, field.2)

/-- Whether every field is on one line. -/
def HasOneLineFields (manifest : Manifest) : Prop :=
  IsOneLine manifest.package ∧ IsOneLine manifest.version ∧ IsOneLine manifest.extension

/-- The keys of a manifest are words of letters. -/
theorem isKey_key (field : Field) : Yaml.IsKey field.key := by
  cases field <;> exact ⟨by decide, by decide, by decide⟩

/-- A manifest is written as the entries of its fields. -/
theorem toList_text (manifest : Manifest) :
    manifest.text.toList = entriesText (manifest.writtenFields.map Field.entry) := by
  cases hextension : manifest.extension.isEmpty <;>
    simp [text, writtenFields, hextension, entriesText, Field.entry, Field.key]

/-- Fields of one line are written as entries. -/
theorem areLines_writtenFields {manifest : Manifest} (hlines : manifest.HasOneLineFields) :
    AreLines (manifest.writtenFields.map Field.entry) := by
  obtain ⟨hpackage, hversion, hextension⟩ := hlines
  have hfields : ∀ field ∈ manifest.writtenFields, IsOneLine field.2 := by
    unfold writtenFields
    split
    · simp [hpackage, hversion]
    · simp [hpackage, hversion, hextension]
  intro entry hmem
  obtain ⟨field, hfield, rfl⟩ := List.mem_map.mp hmem
  exact ⟨isKey_key field.1, hfields field hfield⟩

def setFields (manifest : Manifest) (fields : List (Field × String)) : Manifest :=
  fields.foldl (fun manifest field => manifest.setField field.2 field.1) manifest

/-- The fields that are written make up the manifest. -/
theorem setFields_writtenFields (manifest : Manifest) :
    setFields ⟨"", "", ""⟩ manifest.writtenFields = manifest := by
  obtain ⟨package, version, extension⟩ := manifest
  by_cases hextension : extension = ""
  · subst hextension
    rfl
  · simp [setFields, writtenFields, setField, hextension]

/-! ## Reading -/

theorem scalarText?_key (field : Field) :
    scalarText? "" ⟨field.key, true⟩ = .ok (some field.key) := by
  cases field <;> rfl

/-- Whatever a text looks like, it is read as a text. -/
theorem scalarText?_written (text : String) :
    scalarText? "" (writtenScalar text) = .ok (some text) := by
  have htype : (writtenScalar text).type "" = .ok .text := by
    by_cases hstyle : Yaml.styleOf text = .plain
    · have hplain := ((Yaml.of_styleOf text).1 hstyle).1
      simp only [Yaml.isPlainText, Bool.and_eq_true, beq_iff_eq] at hplain
      simp [Yaml.Scalar.type, writtenScalar, hplain.1]
    · simp [Yaml.Scalar.type, writtenScalar, hstyle]
  simp only [scalarText?, htype]
  rfl

namespace Reading

variable (document : Yaml.Document) (manifest : Manifest) (values : Nat)

/-- Without aliases there is nothing excessive. -/
theorem visit_false :
    visit ⟨manifest, [], values, 0⟩ false = .ok ⟨manifest, [], values + 1, 0⟩ := rfl

theorem ofKey?_key (field : Field) : Field.ofKey? field.key = some field := by
  cases field <;> decide

/-- The text of a scalar is found without following anything. -/
theorem textOf_scalar {scalar : Yaml.Scalar} {text : String}
    (htext : scalarText? "" scalar = .ok (some text)) (line : Nat) :
    textOf document ⟨manifest, [], values, 0⟩ false (.scalar line "" scalar) =
      .ok (⟨manifest, [], values + 1, 0⟩, .ok text) := by
  simp only [textOf, visit_false, textOrMismatch, htext, Yaml.ok_bind]
  rfl

/-- The entry of a field sets that field. -/
theorem readEntry_field (field : Field) (text : String) (keyLine line : Nat) :
    readEntry document ⟨manifest, [], values, 0⟩ false (.scalar keyLine "" ⟨field.key, true⟩)
        (.scalar line "" (writtenScalar text)) =
      .ok ⟨manifest.setField text field, [], values + 2, 0⟩ := by
  simp only [readEntry, textOf_scalar document manifest _ (scalarText?_key field), ofKey?_key,
    textOf_scalar document manifest _ (scalarText?_written text), Yaml.ok_bind]
  rfl

theorem isMergeKey_key (field : Field) (line : Nat) :
    isMergeKey (.scalar line "" ⟨field.key, true⟩) = false := by
  cases field <;> rfl

/-- The entries of some fields set these fields, one after the other. -/
theorem readEntries_fields (follow : Follow) {fields : List (Field × String)}
    {nodes : List (Yaml.Node × Yaml.Node)}
    (hnodes : List.Forall₂ IsEntry (fields.map Field.entry) nodes) :
    ∃ later, readEntries document follow [] ⟨manifest, [], values, 0⟩ nodes =
      .ok ⟨manifest.setFields fields, [], later, 0⟩ := by
  induction fields generalizing manifest values nodes with
  | nil =>
    cases hnodes
    exact ⟨values, by rw [readEntries]; rfl⟩
  | cons field fields ih =>
    obtain ⟨field, text⟩ := field
    cases hnodes with
    | cons hnode hnodes =>
      obtain ⟨keyLine, line, rfl⟩ := hnode
      obtain ⟨later, hread⟩ := ih (manifest.setField text field) (values + 2) hnodes
      refine ⟨later, ?_⟩
      rw [readEntries.eq_def]
      simp only [Field.entry, isMergeKey_key, List.isEmpty_nil, Bool.not_true,
        readEntry_field]
      exact hread

end Reading

/-- A document with the fields of a manifest is read as that manifest. -/
theorem ofDocument_fields {manifest : Manifest} {line : Nat}
    {nodes : List (Yaml.Node × Yaml.Node)}
    (hnodes : List.Forall₂ IsEntry (manifest.writtenFields.map Field.entry) nodes) :
    ofDocument ⟨.mapping line nodes, .empty⟩ = .ok manifest := by
  let document : Yaml.Document := ⟨.mapping line nodes, .empty⟩
  let follow := Reading.followTo document document.anchors.aliases
  obtain ⟨values, hread⟩ := Reading.readEntries_fields document ⟨"", "", ""⟩ 2 follow hnodes
  rw [setFields_writtenFields] at hread
  have hnode : Reading.readNode document follow [] .start (.mapping line nodes) =
      .ok ⟨manifest, [], values, 0⟩ := by
    rw [Reading.readNode]
    exact hread
  change (Reading.readNode document follow [] .start (.mapping line nodes) >>= _) = _
  rw [hnode]
  rfl

/-- The document of a manifest is read as that manifest. -/
theorem ofBytes_text {manifest : Manifest} (hlines : manifest.HasOneLineFields) :
    ofBytes manifest.text.toUTF8 = .ok manifest := by
  have hentries := areLines_writtenFields hlines
  have hne : manifest.writtenFields.map Field.entry ≠ [] := by simp [writtenFields]
  obtain ⟨line, nodes, hdocument, hnodes⟩ :=
    Yaml.Document.ofTokens_entries (Yaml.kinds_ofSource hentries hne)
  have hbytes : Yaml.Document.ofBytes manifest.text.toUTF8 = .ok ⟨.mapping line nodes, .empty⟩ := by
    rw [Yaml.Document.ofBytes, Yaml.Source.ofBytes_entriesText hentries manifest.toList_text,
      hdocument]
  rw [ofBytes, hbytes]
  exact ofDocument_fields hnodes

end Manifest

/-! ## Files -/

namespace Workspace

/-- A directory that can hold a manifest: it is there, and no directory in it has the name
of the file. -/
structure CanHoldManifest (workspace : Workspace) (directory : String) (place : Place) : Prop where
  resolve_eq : workspace.resolve directory = .ok place
  isDirectory : workspace.tree.find? place = some .directory
  isFree : workspace.tree.find? (place ++ [Manifest.entryName]) ≠ some .directory

section Manifests

variable {workspace after : Workspace} {directory : String} {place : Place} {manifest : Manifest}

theorem CanHoldManifest.resolve_path (hholds : workspace.CanHoldManifest directory place) :
    workspace.resolve (Manifest.path directory) = .ok (place ++ [Manifest.entryName]) :=
  resolve_join hholds.resolve_eq hholds.isDirectory Manifest.entryName

/-- A valid manifest is written, and only the file of the manifest changes. -/
theorem CanHoldManifest.writeManifest_eq_ok_iff {value : Unit}
    (hholds : workspace.CanHoldManifest directory place) :
    writeManifest directory manifest workspace = .ok value after ↔
      manifest.validate = .ok () ∧
        after = workspace.withFile (place ++ [Manifest.entryName]) manifest.text.toUTF8 := by
  rw [Workspace.writeManifest_eq_ok_iff, writeFile_eq_ok_iff]
  apply and_congr_right
  intro hvalid
  constructor
  · rintro ⟨other, hother, -, rfl⟩
    cases hholds.resolve_path.symm.trans hother
    rfl
  · rintro rfl
    exact ⟨_, hholds.resolve_path, hholds.isFree, rfl⟩

/-- A manifest that was written is read from its file. -/
theorem CanHoldManifest.readManifest_withFile
    (hholds : workspace.CanHoldManifest directory place) (hvalid : manifest.validate = .ok ())
    (hlines : manifest.HasOneLineFields) :
    (workspace.withFile (place ++ [Manifest.entryName]) manifest.text.toUTF8).readManifest
      directory = .ok manifest := by
  simp only [readManifest, bind_eq_ok_iff, mapError_eq_ok_iff]
  exact ⟨_, readFile_withFile_self hholds.resolve_path hholds.isFree, manifest,
    Manifest.ofBytes_text hlines, (), hvalid, rfl⟩

/-- A manifest is checked before anything is written. -/
theorem writeManifest_of_invalid {error : ManifestError}
    (hinvalid : manifest.validate = .error error) (workspace : Workspace) (directory : String) :
    writeManifest directory manifest workspace = .error (.manifest error) workspace := by
  rw [writeManifest, hinvalid]
  rfl

end Manifests

end Workspace

/-- A manifest is written exactly if it is valid, and otherwise the workspace stays as it
is.  What is read afterwards is the same manifest. -/
theorem written_manifest_reads_back {workspace : Workspace} {directory : String} {place : Place}
    {manifest : Manifest} (hholds : workspace.CanHoldManifest directory place)
    (hlines : manifest.HasOneLineFields) :
    ((∃ after, Workspace.writeManifest directory manifest workspace = .ok () after) ↔
      manifest.validate = .ok ()) ∧
      (∀ error, manifest.validate = .error error →
        Workspace.writeManifest directory manifest workspace =
          .error (.manifest error) workspace) ∧
      ∀ after, Workspace.writeManifest directory manifest workspace = .ok () after →
        after.readManifest directory = .ok manifest ∧
          after.manifestOrFallback directory = .ok manifest := by
  refine ⟨?_, ?_, ?_⟩
  · simp [hholds.writeManifest_eq_ok_iff]
  · intro error hinvalid
    exact Workspace.writeManifest_of_invalid hinvalid workspace directory
  · intro after hwrite
    obtain ⟨hvalid, rfl⟩ := hholds.writeManifest_eq_ok_iff.mp hwrite
    have hread := hholds.readManifest_withFile hvalid hlines
    refine ⟨hread, ?_⟩
    delta Workspace.manifestOrFallback
    rw [hread]

/-- The package has quotes, a colon and a comment sign in it, and the version and the
extension look like numbers. -/
theorem written_manifest_reads_back_quoted :
    ∃ manifest after, manifest = ⟨"- it's \"so\": #1 ", "1.0", ".5"⟩ ∧
      Workspace.emptyModule.CanHoldManifest "." Workspace.emptyModule.directory ∧
      manifest.HasOneLineFields ∧
      Workspace.writeManifest "." manifest Workspace.emptyModule = .ok () after ∧
      after.readManifest "." = .ok manifest ∧ after.manifestOrFallback "." = .ok manifest := by
  have hnone : Workspace.emptyModule.tree.find?
      (Workspace.emptyModule.directory ++ [Manifest.entryName]) = none := rfl
  have hholds : Workspace.emptyModule.CanHoldManifest "." Workspace.emptyModule.directory :=
    ⟨rfl, rfl, by simp [hnone]⟩
  have hlines : Manifest.HasOneLineFields ⟨"- it's \"so\": #1 ", "1.0", ".5"⟩ :=
    ⟨by decide, by decide, by decide⟩
  have hvalid : Manifest.validate ⟨"- it's \"so\": #1 ", "1.0", ".5"⟩ = .ok () := by decide
  obtain ⟨hwrites, -, hreads⟩ := written_manifest_reads_back hholds hlines
  obtain ⟨after, hwrite⟩ := hwrites.mpr hvalid
  exact ⟨_, after, rfl, hholds, hlines, hwrite, hreads after hwrite⟩

end ClassLang
