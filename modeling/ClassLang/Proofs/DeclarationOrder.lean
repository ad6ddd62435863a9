import ClassLang.Adt.Emitted
import ClassLang.Proofs.Lines

/-!
# Order of declarations

What a declaration becomes depends on the others only through the names of sums, and a name is
one wherever its sum stands.  So reordering declarations moves what each of them becomes, and
changes none of it.  The empty lines between two declarations do depend on which of them are
neighbours; all other lines of the file move with their declaration.
-/

namespace ClassLang

namespace Text

/-- The lines of a text without the empty ones. -/
def nonemptyLines (text : String) : List String :=
  (lines text).filter (· ≠ "")

/-- Lines on both sides of a line break are not mixed. -/
theorem nonemptyLines_append_newline (left right : String) :
    nonemptyLines (left ++ "\n" ++ right) = nonemptyLines left ++ nonemptyLines right := by
  rw [nonemptyLines, lines_append_newline, List.filter_append]
  rfl

@[simp]
theorem nonemptyLines_empty : nonemptyLines "" = [] := rfl

@[simp]
theorem nonemptyLines_newline_append (text : String) :
    nonemptyLines ("\n" ++ text) = nonemptyLines text := by
  have happend := nonemptyLines_append_newline "" text
  rwa [String.empty_append, nonemptyLines_empty, List.nil_append] at happend

end Text

namespace Adt

/-! ## Blocks

What a declaration becomes, where `sums` are the names of sums.
-/

/-- A sum is declared under the name, somewhere among the declarations. -/
def DeclaresSum (declarations : List Declaration) (name : String) : Prop :=
  ∃ declaration ∈ declarations, declaration.name = name ∧ declaration.isSum = true

/-- The type for a case.  A sum is embedded; any other type is renamed, and so is a slice of a
sum and a pointer to one. -/
inductive IsCaseType (sums : String → Prop) : Case → Emitted → Prop
  | embedding {name embedded : String} :
      sums embedded →
      IsCaseType sums ⟨name, .value ⟨false, false, embedded⟩⟩ (.embedding name embedded)
  | synonym {name : String} {type : TypeRef} :
      type.isSlice = true ∨ type.isPointer = true ∨ ¬sums type.name →
      IsCaseType sums ⟨name, .value type⟩ (.synonym name type)
  | record {name : String} {members : List Member} :
      IsCaseType sums ⟨name, .record members⟩ (.record name members)

/-- The type and the marker method of each case of a sum, in the order of the cases. -/
inductive AreCases (sums : String → Prop) (sumName : String) : List Case → List Emitted → Prop
  | nil : AreCases sums sumName [] []
  | cons {item : Case} {type : Emitted} {items : List Case} {rest : List Emitted} :
      IsCaseType sums item type → AreCases sums sumName items rest →
      AreCases sums sumName (item :: items) (type :: .marker item.name sumName :: rest)

/-- A synonym, a record, or the interface of a sum with its cases. -/
inductive IsBlock (sums : String → Prop) : Declaration → List Emitted → Prop
  | synonym {name : String} {type : TypeRef} :
      IsBlock sums ⟨name, .synonym type⟩ [.synonym name type]
  | record {name : String} {members : List Member} :
      IsBlock sums ⟨name, .record members⟩ [.record name members]
  | sum {name : String} {items : List Case} {rest : List Emitted} :
      AreCases sums name items rest → IsBlock sums ⟨name, .sum items⟩ (.union name :: rest)

section Blocks

variable {declarations others : List Declaration} {name : String}

/-- The names of sums are found by search. -/
theorem isSumName_eq_true_iff :
    isSumName declarations name = true ↔ DeclaresSum declarations name := by
  simp [isSumName, DeclaresSum, List.any_eq_true]

theorem Case.isCaseType_emit (declarations : List Declaration) (item : Case) :
    IsCaseType (DeclaresSum declarations) item (item.emit declarations) := by
  obtain ⟨name, payload⟩ := item
  cases payload with
  | record members => exact .record
  | value type =>
    obtain ⟨isSlice, isPointer, typeName⟩ := type
    simp only [Case.emit]
    split
    · next hembeds =>
      simp only [Bool.and_eq_true, Bool.not_eq_true', isSumName_eq_true_iff] at hembeds
      obtain ⟨⟨rfl, rfl⟩, hsum⟩ := hembeds
      exact .embedding hsum
    · next hembeds =>
      apply IsCaseType.synonym
      simp only [Bool.and_eq_true, Bool.not_eq_true', isSumName_eq_true_iff] at hembeds
      cases isSlice with
      | true => exact .inl rfl
      | false =>
        cases isPointer with
        | true => exact .inr (.inl rfl)
        | false => exact .inr (.inr fun hsum => hembeds ⟨⟨rfl, rfl⟩, hsum⟩)

theorem areCases_emit (declarations : List Declaration) (sumName : String) (items : List Case) :
    AreCases (DeclaresSum declarations) sumName items
      (items.flatMap fun item => [item.emit declarations, .marker item.name sumName]) := by
  induction items with
  | nil => exact .nil
  | cons item items ih => exact .cons (item.isCaseType_emit declarations) ih

/-- What a declaration emits is the block of it. -/
theorem Declaration.isBlock_emit (declarations : List Declaration) (declaration : Declaration) :
    IsBlock (DeclaresSum declarations) declaration (declaration.emit declarations) := by
  obtain ⟨name, body⟩ := declaration
  cases body with
  | synonym type => exact .synonym
  | record members => exact .record
  | sum items => exact .sum (areCases_emit declarations name items)

/-- A case of a sum stands in the block of the sum, with its marker method behind it. -/
theorem Declaration.infix_emit {declaration : Declaration} {items : List Case}
    (hbody : declaration.body = .sum items) {item : Case} (hitem : item ∈ items) :
    [item.emit declarations, .marker item.name declaration.name] <:+:
      declaration.emit declarations := by
  rw [Declaration.emit, hbody]
  apply List.infix_cons
  rw [List.flatMap_def]
  apply List.infix_of_mem_flatten
  exact List.mem_map_of_mem hitem

theorem Case.emit_of_declaresSum {item : Case} (hvalue : item.payload = .value ⟨false, false, name⟩)
    (hsum : DeclaresSum declarations name) :
    item.emit declarations = .embedding item.name name := by
  rw [← isSumName_eq_true_iff] at hsum
  simp [Case.emit, hvalue, hsum]

/-! ## Reordering -/

/-- The order of declarations makes no difference to which sums there are. -/
theorem declaresSum_of_perm (hperm : declarations.Perm others) :
    DeclaresSum declarations = DeclaresSum others := by
  funext name
  simp only [DeclaresSum, hperm.mem_iff]

theorem isSumName_of_perm (hperm : declarations.Perm others) :
    isSumName declarations = isSumName others := by
  funext name
  rw [Bool.eq_iff_iff, isSumName_eq_true_iff, isSumName_eq_true_iff, declaresSum_of_perm hperm]

theorem Case.emit_of_perm (hperm : declarations.Perm others) :
    Case.emit declarations = Case.emit others := by
  funext item
  simp only [Case.emit, isSumName_of_perm hperm]

/-- So each declaration emits the same in any order. -/
theorem Declaration.emit_of_perm (hperm : declarations.Perm others) :
    Declaration.emit declarations = Declaration.emit others := by
  funext declaration
  simp only [Declaration.emit, Case.emit_of_perm hperm]

end Blocks

/-! ## Lines -/

/-- The lines for something emitted, without the empty ones. -/
def Emitted.lines (emitted : Emitted) : List String :=
  Text.nonemptyLines emitted.text

theorem Emitted.exists_text_eq (emitted : Emitted) : ∃ text, emitted.text = text ++ "\n" := by
  cases emitted with
  | record name members =>
    cases members with
    | nil =>
      have hend : " struct\x7b\x7d\n" = " struct\x7b\x7d" ++ "\n" := by decide
      refine ⟨"type " ++ name ++ " struct\x7b\x7d", ?_⟩
      change "type " ++ name ++ " struct\x7b\x7d\n" = _
      rw [hend, ← String.append_assoc]
    | cons => exact ⟨_, rfl⟩
  | marker caseName sumName =>
    have hend : " \x7b\x7d\n" = " \x7b\x7d" ++ "\n" := by decide
    refine ⟨"func (v " ++ caseName ++ ") " ++ markerName sumName ++ " \x7b\x7d", ?_⟩
    change "func (v " ++ caseName ++ ") " ++ markerName sumName ++ " \x7b\x7d\n" = _
    rw [hend, ← String.append_assoc]
  | synonym | embedding | union => exact ⟨_, rfl⟩

/-- The text of what is emitted ends its last line. -/
theorem Emitted.nonemptyLines_text_append (emitted : Emitted) (rest : String) :
    Text.nonemptyLines (emitted.text ++ rest) = emitted.lines ++ Text.nonemptyLines rest := by
  obtain ⟨text, htext⟩ := emitted.exists_text_eq
  have hlines : emitted.lines = Text.nonemptyLines text := by
    have happend := Text.nonemptyLines_append_newline text ""
    rwa [String.append_empty, ← htext, Text.nonemptyLines_empty, List.append_nil] at happend
  rw [hlines, htext, Text.nonemptyLines_append_newline]

theorem nonemptyLines_textAfter (previous : Emitted) (rest : List Emitted) :
    Text.nonemptyLines (textAfter previous rest) = rest.flatMap Emitted.lines := by
  induction rest generalizing previous with
  | nil => rfl
  | cons next rest ih =>
    have hnext : Text.nonemptyLines (next.text ++ textAfter next rest) =
        (next :: rest).flatMap Emitted.lines := by
      rw [next.nonemptyLines_text_append, ih, List.flatMap_cons]
    rw [textAfter, String.append_assoc]
    -- Whether an empty line comes first depends on both neighbours, but it is not counted.
    split
    · rw [Text.nonemptyLines_newline_append, hnext]
    · rw [String.empty_append, hnext]

theorem nonemptyLines_bodyText (emitted : List Emitted) :
    Text.nonemptyLines (bodyText emitted) = emitted.flatMap Emitted.lines := by
  cases emitted with
  | nil => rfl
  | cons first rest =>
    rw [bodyText, String.append_assoc, Text.nonemptyLines_newline_append,
      first.nonemptyLines_text_append, nonemptyLines_textAfter, List.flatMap_cons]

/-- What stands above the declarations of a file. -/
def fileHead (package : String) : String :=
  "// Code generated by adtgen. DO NOT EDIT.\n\npackage " ++ package

/-- Up to empty lines, a file is its head and then the lines of all that is emitted. -/
theorem nonemptyLines_fileText (package : String) (declarations : List Declaration) :
    Text.nonemptyLines (fileText package declarations) =
      Text.nonemptyLines (fileHead package) ++
        (emitAll declarations).flatMap Emitted.lines := by
  calc
    Text.nonemptyLines (fileText package declarations) =
        Text.nonemptyLines (fileHead package ++ "\n" ++ bodyText (emitAll declarations)) := rfl
    _ = Text.nonemptyLines (fileHead package) ++ (emitAll declarations).flatMap Emitted.lines := by
      rw [Text.nonemptyLines_append_newline, nonemptyLines_bodyText]

/-- Each declaration becomes the same block in every order of the declarations, and the blocks
follow one another as the declarations do, in what is emitted and in the file.  A case embeds a
sum that it carries wherever among the declarations that sum stands. -/
theorem blocks_independent_of_order {declarations others : List Declaration}
    (hperm : declarations.Perm others) :
    (∀ declaration ∈ declarations,
      declaration.emit declarations = declaration.emit others ∧
        IsBlock (DeclaresSum declarations) declaration (declaration.emit declarations)) ∧
      emitAll declarations = declarations.flatMap (Declaration.emit declarations) ∧
      emitAll others = others.flatMap (Declaration.emit declarations) ∧
      (∀ declaration ∈ declarations, ∀ items, declaration.body = .sum items →
        ∀ item ∈ items, ∀ sum ∈ declarations, sum.isSum = true →
          item.payload = .value ⟨false, false, sum.name⟩ →
          [.embedding item.name sum.name, .marker item.name declaration.name] <:+:
            declaration.emit others) ∧
      ∀ package, Text.nonemptyLines (fileText package others) =
        Text.nonemptyLines (fileHead package) ++ others.flatMap fun declaration =>
          (declaration.emit declarations).flatMap Emitted.lines := by
  have hemit : Declaration.emit declarations = Declaration.emit others :=
    Declaration.emit_of_perm hperm
  refine ⟨?_, rfl, ?_, ?_, ?_⟩
  · intro declaration _
    exact ⟨congrFun hemit declaration, declaration.isBlock_emit declarations⟩
  · rw [hemit]
    rfl
  · intro declaration _ items hbody item hitem sum hsum hisSum hvalue
    have hdeclares : DeclaresSum others sum.name :=
      ⟨sum, hperm.mem_iff.mp hsum, rfl, hisSum⟩
    rw [← Case.emit_of_declaresSum hvalue hdeclares]
    exact Declaration.infix_emit hbody hitem
  · intro package
    rw [nonemptyLines_fileText, emitAll, List.flatMap_assoc, hemit]

/-- Two sums that carry each other, with a name of another type between them. -/
def crossedSums : List Declaration :=
  [⟨"Exp", .sum [⟨"Group", .value ⟨false, false, "Exp"⟩⟩,
      ⟨"Quote", .value ⟨false, false, "Stmt"⟩⟩]⟩,
    ⟨"Label", .synonym ⟨false, false, "string"⟩⟩,
    ⟨"Stmt", .sum [⟨"Eval", .value ⟨false, false, "Exp"⟩⟩,
      ⟨"Goto", .value ⟨false, false, "Label"⟩⟩, ⟨"Block", .value ⟨true, false, "Stmt"⟩⟩]⟩]

/-- Two sums that refer to each other emit the same blocks the other way round. -/
theorem crossedSums_reversed :
    crossedSums.Perm crossedSums.reverse ∧
      emitAll crossedSums.reverse =
        crossedSums.reverse.flatMap (Declaration.emit crossedSums) ∧
      emitAll crossedSums.reverse =
        [.union "Stmt", .embedding "Eval" "Exp", .marker "Eval" "Stmt",
          .synonym "Goto" ⟨false, false, "Label"⟩, .marker "Goto" "Stmt",
          .synonym "Block" ⟨true, false, "Stmt"⟩, .marker "Block" "Stmt",
          .synonym "Label" ⟨false, false, "string"⟩,
          .union "Exp", .embedding "Group" "Exp", .marker "Group" "Exp",
          .embedding "Quote" "Stmt", .marker "Quote" "Exp"] := by
  have hperm : crossedSums.Perm crossedSums.reverse := (List.reverse_perm crossedSums).symm
  obtain ⟨-, -, hemitted, -⟩ := blocks_independent_of_order hperm
  exact ⟨hperm, hemitted, by decide⟩

end Adt

end ClassLang
