import ClassLang.Proofs.Targets
import ClassLang.Syntax.Outline

/-!
# Outlines and interfaces

An outline gives the interface of a class: its name and base, its fields, what its
constructor takes and hands on, and the headers of its methods.  Nothing in it says where
one member ends and the next begins, but every piece can be told from what follows it: a
name by the blank or mark behind it, and a field from a constructor since the type of a
field has a blank behind it.  So the whole interface can be read off an outline.
-/

namespace ClassLang

/-- What an outline shows of a method. -/
structure MethodInterface where
  name : String
  params : List VarDec
  returnType : Ty
  deriving DecidableEq

/-- What an outline shows of a class. -/
structure ClassInterface where
  name : String
  base : Option String
  fields : List VarDec
  params : List VarDec
  callsSuper : Bool
  superCount : Nat
  methods : List MethodInterface
  deriving DecidableEq

def Method.interface (method : Method) : MethodInterface :=
  ⟨method.name, method.params, method.returnType⟩

def ClassDef.interface (classDef : ClassDef) : ClassInterface where
  name := classDef.name
  base := classDef.base
  fields := classDef.fields
  params := classDef.init.params
  callsSuper := classDef.init.callsSuper
  superCount := classDef.init.superArgs.length
  methods := classDef.methods.map Method.interface

/-! ## Words -/

namespace Text

variable {left right : String} {first last : List Char}

/-- A word can be told from what follows it. -/
theorem word_append_inj (hleft : Within Lexeme.continuesName left)
    (hright : Within Lexeme.continuesName right) (hfirst : Boundary first)
    (hlast : Boundary last) (heq : left.toList ++ first = right.toList ++ last) :
    left = right ∧ first = last := by
  obtain ⟨htake, hdrop⟩ := takeWhile_dropWhile_run (List.all_eq_true.mp hleft) hfirst
  obtain ⟨hothers, hrest⟩ := takeWhile_dropWhile_run (List.all_eq_true.mp hright) hlast
  rw [heq] at htake hdrop
  exact ⟨String.toList_inj.mp (htake.symm.trans hothers), hdrop.symm.trans hrest⟩

theorem decimal_inj {left right : Nat} (heq : decimal left = decimal right) : left = right := by
  have hdigits : Nat.toDigits 10 left = Nat.toDigits 10 right :=
    String.ofList_inj.mp heq
  have hread := readNat?_toDigits left
  rw [hdigits, readNat?_toDigits right] at hread
  exact (Option.some.inj hread).symm

end Text

theorem Ty.within_source {ty : Ty} (hwell : ty.isWellFormed = true) :
    Text.Within Lexeme.continuesName ty.source := by
  cases ty with
  | missing => cases hwell
  | int | bool | void => decide
  | named className => exact Lexeme.continuesName_of_isName hwell

theorem Ty.source_ne_empty {ty : Ty} (hwell : ty.isWellFormed = true) : ty.source ≠ "" := by
  cases ty with
  | missing => cases hwell
  | int | bool | void => decide
  | named className =>
    rintro rfl
    cases hwell

/-- The type that a text names. -/
def Ty.ofSource : String → Ty
  | "int" => .int
  | "bool" => .bool
  | "void" => .void
  | className => .named className

/-- No class is called like a built-in type. -/
theorem Ty.ofSource_source {ty : Ty} (hwell : ty.isWellFormed = true) :
    ofSource ty.source = ty := by
  cases ty with
  | missing => cases hwell
  | int | bool | void => rfl
  | named className =>
    change ofSource className = .named className
    unfold ofSource
    split
    · cases hwell
    · cases hwell
    · cases hwell
    · rfl

/-! ## Pieces of outlines -/

section Pieces

variable {first last : List Char}

/-- A type can be read off a text that goes on with something that is no name. -/
theorem Ty.source_append_inj {left right : Ty} (hleft : left.isWellFormed = true)
    (hright : right.isWellFormed = true) (hfirst : Boundary first) (hlast : Boundary last)
    (heq : left.source.toList ++ first = right.source.toList ++ last) :
    left = right ∧ first = last := by
  obtain ⟨hsource, hrest⟩ :=
    Text.word_append_inj (within_source hleft) (within_source hright) hfirst hlast heq
  refine ⟨?_, hrest⟩
  rw [← ofSource_source hleft, hsource, ofSource_source hright]

theorem VarDec.toList_typedName (dec : VarDec) :
    dec.typedName.toList = dec.type.source.toList ++ ' ' :: dec.name.toList := by
  simp [typedName]

/-- So can a type and a name. -/
theorem VarDec.typedName_append_inj {left right : VarDec} (hleft : left.isWellFormed = true)
    (hright : right.isWellFormed = true) (hfirst : Boundary first) (hlast : Boundary last)
    (heq : left.typedName.toList ++ first = right.typedName.toList ++ last) :
    left = right ∧ first = last := by
  obtain ⟨type, name⟩ := left
  obtain ⟨otherType, otherName⟩ := right
  rw [isWellFormed, Bool.and_eq_true] at hleft hright
  simp only [toList_typedName, List.append_assoc, List.cons_append] at heq
  obtain ⟨rfl, hnames⟩ := Ty.source_append_inj hleft.1 hright.1 (boundary_cons rfl _)
    (boundary_cons rfl _) heq
  obtain ⟨rfl, hrest⟩ := Text.word_append_inj (Lexeme.continuesName_of_isName hleft.2)
    (Lexeme.continuesName_of_isName hright.2) hfirst hlast (List.tail_eq_of_cons_eq hnames)
  exact ⟨rfl, hrest⟩

/-- What stands behind the first of some parameters, up to the closing parenthesis and beyond. -/
def VarDec.afterParameter (others : List VarDec) (rest : List Char) : List Char :=
  if others.isEmpty then ')' :: rest
  else ',' :: ' ' :: ((parameters others).toList ++ ')' :: rest)

theorem VarDec.parameters_cons_append (dec : VarDec) (others : List VarDec) (rest : List Char) :
    (parameters (dec :: others)).toList ++ ')' :: rest =
      dec.typedName.toList ++ afterParameter others rest := by
  cases others with
  | nil => simp [parameters, Text.commaSeparated, afterParameter]
  | cons other others =>
    simp [parameters, Text.commaSeparated, afterParameter, String.intercalate_cons_cons]

theorem VarDec.boundary_afterParameter (others : List VarDec) (rest : List Char) :
    Boundary (afterParameter others rest) := by
  unfold afterParameter
  split
  · exact boundary_cons rfl _
  · exact boundary_cons rfl _

theorem VarDec.typedName_append_ne {dec : VarDec} (hwell : dec.isWellFormed = true) :
    dec.typedName.toList ++ first ≠ ')' :: last := by
  rw [isWellFormed, Bool.and_eq_true] at hwell
  rw [toList_typedName, List.append_assoc]
  intro heq
  have hempty : Text.Within Lexeme.continuesName "" := rfl
  exact Ty.source_ne_empty hwell.1 (Text.word_append_inj (Ty.within_source hwell.1) hempty
    (boundary_cons rfl _) (boundary_cons rfl _) heq).1

/-- Parameters can be read off a text up to the closing parenthesis. -/
theorem VarDec.parameters_append_inj {left right : List VarDec}
    (hleft : ∀ dec ∈ left, dec.isWellFormed = true)
    (hright : ∀ dec ∈ right, dec.isWellFormed = true)
    (heq : (parameters left).toList ++ ')' :: first = (parameters right).toList ++ ')' :: last) :
    left = right ∧ first = last := by
  induction left generalizing right with
  | nil =>
    cases right with
    | nil => exact ⟨rfl, List.tail_eq_of_cons_eq heq⟩
    | cons other others =>
      rw [parameters_cons_append] at heq
      exact absurd heq.symm (typedName_append_ne (hright other List.mem_cons_self))
  | cons dec decs ih =>
    cases right with
    | nil =>
      rw [parameters_cons_append] at heq
      exact absurd heq (typedName_append_ne (hleft dec List.mem_cons_self))
    | cons other others =>
      rw [List.forall_mem_cons] at hleft hright
      rw [parameters_cons_append, parameters_cons_append] at heq
      obtain ⟨rfl, hrest⟩ := typedName_append_inj hleft.1 hright.1
        (boundary_afterParameter _ _) (boundary_afterParameter _ _) heq
      unfold afterParameter at hrest
      split at hrest <;> split at hrest
      · next hdecs hothers =>
        rw [List.isEmpty_iff.mp hdecs, List.isEmpty_iff.mp hothers]
        exact ⟨rfl, List.tail_eq_of_cons_eq hrest⟩
      · cases List.head_eq_of_cons_eq hrest
      · cases List.head_eq_of_cons_eq hrest
      · obtain ⟨rfl, hlast⟩ := ih hleft.2 hright.2 (by simpa using hrest)
        exact ⟨rfl, hlast⟩

/-! ## Members -/

/-- What the signature of a constructor has behind the parameters. -/
def Constructor.superNote (init : Constructor) (rest : List Char) : List Char :=
  if init.callsSuper then
    " super(".toList ++ ((Text.decimal init.superArgs.length).toList ++ ')' :: ';' :: rest)
  else ';' :: rest

theorem Constructor.signature_append (init : Constructor) (rest : List Char) :
    init.signature.toList ++ rest =
      "init(".toList ++ ((VarDec.parameters init.params).toList ++ ')' :: init.superNote rest) := by
  cases hcalls : init.callsSuper <;> simp [signature, superNote, hcalls]

/-- The note on the call of the base says whether there is one and how many arguments it
has. -/
theorem Constructor.superNote_inj {left right : Constructor}
    (hleft : (left.callsSuper || left.superArgs.isEmpty) = true)
    (hright : (right.callsSuper || right.superArgs.isEmpty) = true)
    (heq : left.superNote first = right.superNote last) :
    left.callsSuper = right.callsSuper ∧ left.superArgs.length = right.superArgs.length ∧
      first = last := by
  cases hcalls : left.callsSuper <;> cases hothers : right.callsSuper <;>
    simp only [superNote, hcalls, hothers, Bool.false_eq_true, if_true, if_false] at heq
  · rw [hcalls, Bool.false_or, List.isEmpty_iff] at hleft
    rw [hothers, Bool.false_or, List.isEmpty_iff] at hright
    rw [hleft, hright]
    exact ⟨rfl, rfl, List.tail_eq_of_cons_eq heq⟩
  · cases List.head_eq_of_cons_eq heq
  · cases List.head_eq_of_cons_eq heq
  · obtain ⟨hcount, hrest⟩ := Text.word_append_inj (Text.continuesName_decimal (by simp))
      (Text.continuesName_decimal (by simp)) (boundary_cons rfl _) (boundary_cons rfl _)
      (List.append_cancel_left heq)
    exact ⟨rfl, Text.decimal_inj hcount, by simpa using hrest⟩

/-- The signature of a constructor shows its interface. -/
theorem Constructor.signature_append_inj {left right : Constructor} {base other : Option String}
    (hleft : left.isWellFormed base = true) (hright : right.isWellFormed other = true)
    (heq : left.signature.toList ++ first = right.signature.toList ++ last) :
    left.params = right.params ∧ left.callsSuper = right.callsSuper ∧
      left.superArgs.length = right.superArgs.length ∧ first = last := by
  simp only [isWellFormed, Bool.and_eq_true, List.all_eq_true] at hleft hright
  obtain ⟨⟨⟨⟨hparams, -⟩, hargs⟩, -⟩, -⟩ := hleft
  obtain ⟨⟨⟨⟨hotherParams, -⟩, hotherArgs⟩, -⟩, -⟩ := hright
  rw [signature_append, signature_append] at heq
  obtain ⟨hsame, hnote⟩ :=
    VarDec.parameters_append_inj hparams hotherParams (List.append_cancel_left heq)
  exact ⟨hsame, superNote_inj hargs hotherArgs hnote⟩

theorem Method.signature_append (method : Method) (rest : List Char) :
    method.signature.toList ++ rest =
      "method ".toList ++ (method.name.toList ++ '(' ::
        ((VarDec.parameters method.params).toList ++ ')' ::
          (' ' :: (method.returnType.source.toList ++ ';' :: rest)))) := by
  simp [signature, header]

/-- The signature of a method shows its interface. -/
theorem Method.signature_append_inj {left right : Method} (hleft : left.isWellFormed = true)
    (hright : right.isWellFormed = true)
    (heq : left.signature.toList ++ first = right.signature.toList ++ last) :
    left.interface = right.interface ∧ first = last := by
  simp only [isWellFormed, Bool.and_eq_true, List.all_eq_true] at hleft hright
  obtain ⟨⟨⟨hname, htype⟩, hparams⟩, -⟩ := hleft
  obtain ⟨⟨⟨hotherName, hotherType⟩, hotherParams⟩, -⟩ := hright
  rw [signature_append, signature_append] at heq
  obtain ⟨hsameName, hrest⟩ := Text.word_append_inj (Lexeme.continuesName_of_isName hname)
    (Lexeme.continuesName_of_isName hotherName) (boundary_cons rfl _) (boundary_cons rfl _)
    (List.append_cancel_left heq)
  obtain ⟨hsameParams, hrest⟩ :=
    VarDec.parameters_append_inj hparams hotherParams (List.tail_eq_of_cons_eq hrest)
  obtain ⟨hsameType, hrest⟩ := Ty.source_append_inj htype hotherType (boundary_cons rfl _)
    (boundary_cons rfl _) (List.tail_eq_of_cons_eq hrest)
  refine ⟨?_, List.tail_eq_of_cons_eq hrest⟩
  rw [interface, hsameName, hsameParams, hsameType, interface]

/-- What the first line of an outline has behind the name of the class, and what follows it. -/
def ClassDef.baseNote (classDef : ClassDef) (rest : List Char) : List Char :=
  match classDef.base with
  | some base => " extends ".toList ++ (base.toList ++ '\n' :: rest)
  | none => '\n' :: rest

theorem ClassDef.header_append (classDef : ClassDef) (rest : List Char) :
    classDef.header.toList ++ '\n' :: rest =
      "class ".toList ++ (classDef.name.toList ++ classDef.baseNote rest) := by
  cases hbase : classDef.base <;> simp [header, baseNote, hbase]

theorem ClassDef.boundary_baseNote (classDef : ClassDef) (rest : List Char) :
    Boundary (classDef.baseNote rest) := by
  unfold baseNote
  split
  · exact boundary_cons rfl _
  · exact boundary_cons rfl _

theorem ClassDef.baseNote_inj {left right : ClassDef} (hleft : left.base.all Lexeme.isName = true)
    (hright : right.base.all Lexeme.isName = true)
    (heq : left.baseNote first = right.baseNote last) : left.base = right.base ∧ first = last := by
  cases hbase : left.base <;> cases hother : right.base <;>
    simp only [baseNote, hbase, hother, Option.all_some] at heq hleft hright
  · exact ⟨rfl, List.tail_eq_of_cons_eq heq⟩
  · cases List.head_eq_of_cons_eq heq
  · cases List.head_eq_of_cons_eq heq
  · obtain ⟨rfl, hrest⟩ := Text.word_append_inj (Lexeme.continuesName_of_isName hleft)
      (Lexeme.continuesName_of_isName hright) (boundary_cons rfl _) (boundary_cons rfl _)
      (List.append_cancel_left heq)
    exact ⟨rfl, List.tail_eq_of_cons_eq hrest⟩

/-- The header of a class shows its name and its base. -/
theorem ClassDef.header_append_inj {left right : ClassDef} (hleft : left.isWellFormed = true)
    (hright : right.isWellFormed = true)
    (heq : left.header.toList ++ '\n' :: first = right.header.toList ++ '\n' :: last) :
    left.name = right.name ∧ left.base = right.base ∧ first = last := by
  simp only [isWellFormed, Bool.and_eq_true] at hleft hright
  obtain ⟨⟨⟨⟨hname, hbase⟩, -⟩, -⟩, -⟩ := hleft
  obtain ⟨⟨⟨⟨hotherName, hotherBase⟩, -⟩, -⟩, -⟩ := hright
  rw [header_append, header_append] at heq
  obtain ⟨hsame, hnote⟩ := Text.word_append_inj (Lexeme.continuesName_of_isName hname)
    (Lexeme.continuesName_of_isName hotherName) (left.boundary_baseNote first)
    (right.boundary_baseNote last) (List.append_cancel_left heq)
  exact ⟨hsame, baseNote_inj hbase hotherBase hnote⟩

end Pieces

/-! ## Lists of members -/

/-- The lines of some members in an outline. -/
def outlineLines (signatures : List String) : String :=
  String.join (signatures.map fun signature => "\t" ++ signature ++ "\n")

theorem outlineLines_cons_append (signature : String) (signatures : List String)
    (rest : List Char) :
    (outlineLines (signature :: signatures)).toList ++ rest =
      '\t' :: (signature.toList ++ '\n' :: ((outlineLines signatures).toList ++ rest)) := by
  simp [outlineLines]

/-- A signature shows what is seen of its member, and its line cannot be taken for what
follows the members. -/
structure SignaturesShow {α β : Type} (signature : α → String) (view : α → β)
    (IsMember : α → Prop) (IsEnd : List Char → Prop) : Prop where
  inj : ∀ {left right : α} {first last : List Char}, IsMember left → IsMember right →
    (signature left).toList ++ first = (signature right).toList ++ last →
      view left = view right ∧ first = last
  ne_end : ∀ {item : α} {ending : List Char}, IsMember item → IsEnd ending →
    ∀ rest, '\t' :: ((signature item).toList ++ rest) ≠ ending

/-- Lines of signatures show as much as the signatures do, one by one. -/
theorem SignaturesShow.outlineLines_inj {α β : Type} {signature : α → String} {view : α → β}
    {IsMember : α → Prop} {IsEnd : List Char → Prop}
    (hshow : SignaturesShow signature view IsMember IsEnd) {left right : List α}
    {first last : List Char} (hleft : ∀ item ∈ left, IsMember item)
    (hright : ∀ item ∈ right, IsMember item) (hfirst : IsEnd first) (hlast : IsEnd last)
    (heq : (outlineLines (left.map signature)).toList ++ first =
      (outlineLines (right.map signature)).toList ++ last) :
    left.map view = right.map view ∧ first = last := by
  induction left generalizing right with
  | nil =>
    cases right with
    | nil => exact ⟨rfl, heq⟩
    | cons other others =>
      rw [List.map_cons, outlineLines_cons_append] at heq
      exact absurd heq.symm (hshow.ne_end (hright other List.mem_cons_self) hfirst _)
  | cons item items ih =>
    cases right with
    | nil =>
      rw [List.map_cons, outlineLines_cons_append] at heq
      exact absurd heq (hshow.ne_end (hleft item List.mem_cons_self) hlast _)
    | cons other others =>
      rw [List.forall_mem_cons] at hleft hright
      simp only [List.map_cons, outlineLines_cons_append] at heq
      obtain ⟨hview, hrest⟩ := hshow.inj hleft.1 hright.1 (List.tail_eq_of_cons_eq heq)
      obtain ⟨hviews, hends⟩ := ih hleft.2 hright.2 (List.tail_eq_of_cons_eq hrest)
      exact ⟨by rw [List.map_cons, List.map_cons, hview, hviews], hends⟩

/-- The line of a constructor. -/
def StartsConstructor (chars : List Char) : Prop :=
  ∃ rest, chars = '\t' :: ("init".toList ++ '(' :: rest)

theorem startsConstructor_signature (init : Constructor) (rest : List Char) :
    StartsConstructor ('\t' :: (init.signature.toList ++ rest)) := by
  rw [init.signature_append]
  exact ⟨_, rfl⟩

theorem VarDec.source_append (dec : VarDec) (rest : List Char) :
    dec.source.toList ++ rest = dec.typedName.toList ++ ';' :: rest := by
  simp [source]

/-- Fields are shown as they are written, and the constructor ends them. -/
theorem signaturesShow_fields :
    SignaturesShow VarDec.source id (fun dec => dec.isWellFormed = true) StartsConstructor where
  inj hleft hright heq := by
    rw [VarDec.source_append, VarDec.source_append] at heq
    obtain ⟨hsame, hrest⟩ := VarDec.typedName_append_inj hleft hright (boundary_cons rfl _)
      (boundary_cons rfl _) heq
    exact ⟨hsame, List.tail_eq_of_cons_eq hrest⟩
  ne_end hdec hend := by
    obtain ⟨more, rfl⟩ := hend
    rw [VarDec.isWellFormed, Bool.and_eq_true] at hdec
    intro rest heq
    -- A type has a blank behind it, and the word of a constructor a parenthesis.
    rw [VarDec.source_append, VarDec.toList_typedName, List.append_assoc] at heq
    have hinit : Text.Within Lexeme.continuesName "init" := by decide
    have hrest := (Text.word_append_inj (Ty.within_source hdec.1) hinit (boundary_cons rfl _)
      (boundary_cons rfl _) (List.tail_eq_of_cons_eq heq)).2
    cases List.head_eq_of_cons_eq hrest

theorem signaturesShow_methods :
    SignaturesShow Method.signature Method.interface (fun method => method.isWellFormed = true)
      (· = []) where
  inj := Method.signature_append_inj
  ne_end _ hend rest := by
    rw [hend]
    exact List.cons_ne_nil _ _

/-! ## Whole outlines -/

theorem ClassDef.toList_outline (classDef : ClassDef) :
    classDef.outline.toList = classDef.header.toList ++ '\n' ::
      ((outlineLines (classDef.fields.map VarDec.source)).toList ++
        '\t' :: (classDef.init.signature.toList ++ '\n' ::
          (outlineLines (classDef.methods.map Method.signature)).toList)) := by
  simp [outline, signatures, outlineLines]

/-- Classes with the same outline have the same interface. -/
theorem ClassDef.interface_of_outline {left right : ClassDef} (hleft : left.isWellFormed = true)
    (hright : right.isWellFormed = true) (heq : left.outline = right.outline) :
    left.interface = right.interface := by
  rw [← String.toList_inj, toList_outline, toList_outline] at heq
  obtain ⟨hname, hbase, hmembers⟩ := header_append_inj hleft hright heq
  simp only [isWellFormed, Bool.and_eq_true, List.all_eq_true] at hleft hright
  obtain ⟨⟨⟨-, hfields⟩, hinit⟩, hmethods⟩ := hleft
  obtain ⟨⟨⟨-, hotherFields⟩, hotherInit⟩, hotherMethods⟩ := hright
  obtain ⟨hsameFields, hrest⟩ := signaturesShow_fields.outlineLines_inj hfields hotherFields
    (startsConstructor_signature _ _) (startsConstructor_signature _ _) hmembers
  obtain ⟨hparams, hcalls, hcount, hrest⟩ :=
    Constructor.signature_append_inj hinit hotherInit (List.tail_eq_of_cons_eq hrest)
  have hlines := List.tail_eq_of_cons_eq hrest
  obtain ⟨hsameMethods, -⟩ := signaturesShow_methods.outlineLines_inj hmethods hotherMethods
    rfl rfl (congrArg (· ++ []) hlines)
  rw [List.map_id, List.map_id] at hsameFields
  rw [interface, hname, hbase, hsameFields, hparams, hcalls, hcount, hsameMethods, interface]

/-- A class with the given interface, with nothing in its bodies. -/
def ClassInterface.emptyClass (interface : ClassInterface) : ClassDef where
  name := interface.name
  base := interface.base
  fields := interface.fields
  init := ⟨interface.params, interface.callsSuper, .replicate interface.superCount .missing, []⟩
  methods := interface.methods.map fun method => ⟨method.name, method.returnType, method.params, []⟩

/-- Bodies and the arguments for the base class are not shown. -/
theorem ClassDef.outline_emptyClass (classDef : ClassDef) :
    classDef.interface.emptyClass.outline = classDef.outline := by
  have hinit : classDef.interface.emptyClass.init.signature = classDef.init.signature := by
    simp [ClassInterface.emptyClass, interface, Constructor.signature]
  have hmethods : classDef.interface.emptyClass.methods.map Method.signature =
      classDef.methods.map Method.signature := by
    simp only [ClassInterface.emptyClass, interface, List.map_map]
    rfl
  rw [outline, signatures, hinit, hmethods]
  rfl

/-- The class was read, alone or in a program. -/
def ClassDef.IsRead (classDef : ClassDef) : Prop :=
  ∃ source file tokens, tokenize source file = .ok tokens ∧
    ((∃ place next, Parser.classDefAt tokens.toArray place = .ok (classDef, next)) ∨
      ∃ program, Program.ofTokens tokens = .ok program ∧ classDef ∈ program.classes)

/-- The classes that can be read from a source are the well-formed ones. -/
theorem ClassDef.isRead_iff {classDef : ClassDef} :
    classDef.IsRead ↔ classDef.isWellFormed = true := by
  constructor
  · rintro ⟨source, file, tokens, htokens, ⟨place, next, hclass⟩ | ⟨program, hprogram, hmem⟩⟩
    · exact isWellFormed_of_classDefAt htokens hclass
    · exact isWellFormed_of_mem (Program.isWellFormed_of_ofTokens htokens hprogram) hmem
  · intro hwell
    have hprogram : (⟨[classDef], [.breakLoop]⟩ : Program).isWellFormed = true := by
      simp [Program.isWellFormed, Stmt.allWellFormed, Stmt.isWellFormed, hwell]
    obtain ⟨tokens, htokens, hread⟩ :=
      exists_tokens_of_written (Program.written_source hprogram) ""
    exact ⟨_, _, tokens, htokens, .inr ⟨_, hread, List.mem_singleton.mpr rfl⟩⟩

/-- Two classes that were read have the same outline exactly if they have the same
interface, whatever else is in them. -/
theorem outlines_show_interfaces {left right : ClassDef} (hleft : left.IsRead)
    (hright : right.IsRead) : left.outline = right.outline ↔ left.interface = right.interface := by
  constructor
  · exact ClassDef.interface_of_outline (ClassDef.isRead_iff.mp hleft)
      (ClassDef.isRead_iff.mp hright)
  · intro heq
    rw [← left.outline_emptyClass, heq, right.outline_emptyClass]

/-- A class with the given arguments for its base class and the given body of a method. -/
def ClassDef.withBodies (args : List Exp) (body : List Stmt) : ClassDef where
  name := "A"
  base := some "B"
  fields := [⟨.int, "n"⟩, ⟨.named "A", "next"⟩]
  init := ⟨[⟨.int, "a"⟩], true, args, []⟩
  methods := [⟨"f", .void, [⟨.bool, "b"⟩, ⟨.named "A", "c"⟩], body⟩]

/-- Other bodies and other arguments for the base class leave the outline as it is, but not
another number of arguments. -/
theorem outlines_show_interfaces_bodies :
    ∃ left right other : ClassDef, left.IsRead ∧ right.IsRead ∧ other.IsRead ∧
      left = .withBodies [.name "a", .int 1] [.returnNone] ∧
      right = .withBodies [.this, .new "B"] [.whileLoop (.name "b") .breakLoop] ∧
      other = .withBodies [.name "a"] [.returnNone] ∧
      left.outline = right.outline ∧ left.outline ≠ other.outline ∧
      left.outline = "class A extends B\n\tint n;\n\tA next;\n\tinit(int a) super(2);\n"
        ++ "\tmethod f(bool b, A c) void;\n" := by
  have hread : ∀ {classDef : ClassDef}, classDef.isWellFormed = true → classDef.IsRead :=
    ClassDef.isRead_iff.mpr
  have hleft : (ClassDef.withBodies [.name "a", .int 1] [.returnNone]).IsRead :=
    hread (by decide)
  have hright : (ClassDef.withBodies [.this, .new "B"]
      [.whileLoop (.name "b") .breakLoop]).IsRead := hread (by decide)
  have hother : (ClassDef.withBodies [.name "a"] [.returnNone]).IsRead := hread (by decide)
  refine ⟨_, _, _, hleft, hright, hother, rfl, rfl, rfl, ?_, ?_, rfl⟩
  · exact (outlines_show_interfaces hleft hright).mpr rfl
  · intro heq
    have hsame := (outlines_show_interfaces hleft hother).mp heq
    exact absurd hsame (by decide)

end ClassLang
