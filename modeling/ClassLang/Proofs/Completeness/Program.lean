import ClassLang.Proofs.Completeness.Statement

/-!
# The parser reads every class and every program of the grammar
-/

namespace ClassLang

open Grammar

namespace Parser

/-! ## Classes -/

section Sequence

variable {α : Type} {IsItem : List Lexeme → α → Prop} {begins : List Token → Prop}
  [DecidablePred begins] {read : List Token → Except SourceError (α × List Token)}
  {loop : List Token → Except SourceError (List α × List Token)}

/-- A loop that goes on as long as an item begins reads a whole sequence.  Fields, methods
and classes are all read by such a loop. -/
theorem sequence_parses
    (hloop : ∀ tokens, loop tokens =
      if begins tokens then do
        let (first, after) ← read tokens
        let (others, rest) ← loop after
        .ok (first :: others, rest)
      else .ok ([], tokens))
    (hread : ∀ {item : α} {used : List Token} (rest : List Token),
      IsItem (used.map Token.toLexeme) item → AllProper used →
      begins (used ++ rest) ∧ read (used ++ rest) = .ok (item, rest))
    {lexemes : List Lexeme} {items : List α} (hitems : IsSequence IsItem lexemes items)
    {used rest : List Token} (hused : used.map Token.toLexeme = lexemes)
    (hproper : AllProper used) (hend : ¬begins rest) :
    loop (used ++ rest) = .ok (items, rest) := by
  induction hitems generalizing used with
  | nil =>
    obtain rfl := List.map_eq_nil_iff.mp hused
    rw [List.nil_append, hloop, if_neg hend]
  | cons hitem _ ih =>
    obtain ⟨first, after, rfl, rfl, hafter⟩ := List.map_eq_append_iff.mp hused
    obtain ⟨hbegins, hfirst⟩ := hread (after ++ rest) hitem hproper.append_left
    rw [List.append_assoc, hloop, if_pos hbegins, hfirst]
    simp only [bind, Except.bind, ih hafter hproper.append_right]

end Sequence

section Class

variable {stop : Span} {lexemes : List Lexeme} {used : List Token}

/-- Parameters end at the closing parenthesis. -/
theorem parameterList_parses {params : List VarDec} (hparams : IsParameterList lexemes params)
    (hused : used.map Token.toLexeme = lexemes) {closing : Token}
    (hclosing : closing.toLexeme.kind = .closeParen) (context : String) (rest : List Token) :
    Parsed.outcome (parameterList stop context (used ++ closing :: rest)) =
      .ok (params, rest) := by
  induction hparams generalizing used with
  | last hparam =>
    have hkind : closing.kind = .closeParen := hclosing
    rw [outcome_parameterList, typedName_parses hparam hused]
    simp only [bind, Except.bind]
    rw [outcome_expect_cons stop _ _ (by rw [hkind]; decide)]
    exact if_pos hkind
  | cons hparam hcomma _ ih =>
    simp only [List.map_eq_append_iff, List.map_eq_cons_iff] at hused
    obtain ⟨first, _, rfl, hfirst, mark, after, rfl, rfl, hafter⟩ := hused
    have hkind : mark.kind = .comma := hcomma
    rw [List.append_assoc, List.cons_append, outcome_parameterList, typedName_parses hparam hfirst]
    simp only [bind, Except.bind]
    rw [outcome_expect_cons stop _ _ (by rw [hkind]; decide)]
    refine (if_neg (by rw [hkind]; decide)).trans ?_
    rw [ih hafter]

theorem parameters_parses {params : List VarDec} (hparams : IsParameters lexemes params)
    (hused : used.map Token.toLexeme = lexemes) (context : String) (rest : List Token) :
    Parsed.outcome (parameters stop context (used ++ rest)) = .ok (params, rest) := by
  cases hparams with
  | none hopening hclosing =>
    simp only [List.map_eq_cons_iff, List.map_eq_nil_iff] at hused
    obtain ⟨first, _, rfl, rfl, last, _, rfl, rfl, rfl⟩ := hused
    simp only [List.cons_append, List.nil_append]
    rw [outcome_parameters, outcome_expect_one _ hopening]
    exact if_pos hclosing
  | some hopening hparams hclosing =>
    simp only [List.cons_append, List.map_eq_cons_iff, List.map_eq_append_iff,
      List.map_eq_nil_iff] at hused
    obtain ⟨first, _, rfl, rfl, middle, _, rfl, rfl, last, _, rfl, rfl, rfl⟩ := hused
    simp only [List.cons_append]
    rw [List.append_assoc middle, List.singleton_append, outcome_parameters,
      outcome_expect_one _ hopening]
    exact (if_neg (hparams.starts.peek_ne _ (by decide))).trans
      (parameterList_parses hparams rfl hclosing context rest)

/-- A call of the base is read if there is one, and nothing else is taken for it. -/
theorem superCall_parses {className : String} {base : Option String}
    {call : Option (List Exp)} (hcall : IsSuperCall lexemes call)
    (hbase : call.isSome → base.isSome) (hused : used.map Token.toLexeme = lexemes)
    {rest : List Token} (hrest : peek rest ≠ .superWord) :
    Continued.outcome (superCall stop className base (used ++ rest)) = .ok (call, rest) := by
  rw [outcome_superCall]
  cases hcall with
  | none =>
    obtain rfl := List.map_eq_nil_iff.mp hused
    exact if_neg hrest
  | some hword hargs hsemicolon =>
    simp only [List.cons_append, List.map_eq_cons_iff, List.map_eq_append_iff,
      List.map_eq_nil_iff] at hused
    obtain ⟨first, _, rfl, rfl, middle, _, rfl, hmiddle, last, _, rfl, rfl, rfl⟩ := hused
    obtain ⟨name, rfl⟩ := Option.isSome_iff_exists.mp (hbase rfl)
    refine (if_pos hword).trans ?_
    rw [List.cons_append, List.tail_cons, List.append_assoc, List.singleton_append]
    dsimp only
    rw [arguments_parse stop hargs _ middle _ hmiddle]
    simp only [bind, Except.bind, outcome_expect_one _ hsemicolon]

theorem constructor_parses {className : String} {base : Option String} {init : Constructor}
    (hinit : IsConstructor base lexemes init) (hused : used.map Token.toLexeme = lexemes)
    (rest : List Token) :
    Parsed.outcome (constructor stop className base (used ++ rest)) = .ok (init, rest) := by
  obtain ⟨hword, hparams, hopening, hcall, hbase, hbody, hclosing⟩ := hinit
  simp only [List.cons_append, List.append_assoc, List.map_eq_cons_iff, List.map_eq_append_iff,
    List.map_eq_nil_iff] at hused
  obtain ⟨first, _, rfl, rfl, head, _, rfl, hhead, second, _, rfl, rfl, start, _, rfl, hstart,
    inner, _, rfl, rfl, last, _, rfl, rfl, rfl⟩ := hused
  have hsplit : first :: (head ++ second :: (start ++ (inner ++ [last]))) ++ rest =
      first :: (head ++ second :: (start ++ (inner ++ last :: rest))) := by simp
  have hlast : last.kind = .closeBrace := hclosing
  have hsuper : peek (inner ++ last :: rest) ≠ .superWord :=
    hbody.peek_ne rfl (by decide) (by rw [peek_cons, hlast]; decide)
  rw [hsplit, outcome_constructor, outcome_expect_one _ hword]
  simp only [bind, Except.bind, parameters_parses hparams hhead, outcome_expect_one _ hopening,
    superCall_parses hcall hbase hstart hsuper,
    stmts_parse stop hbody _ inner rest last rfl hclosing]

theorem method_parses {method : Method} (hmethod : IsMethod lexemes method)
    (hused : used.map Token.toLexeme = lexemes) (rest : List Token) :
    peek (used ++ rest) = .methodWord ∧
      Parsed.outcome (Parser.method stop (used ++ rest)) = .ok (method, rest) := by
  obtain ⟨hword, hname, hparams, htype, hopening, hbody, hclosing⟩ := hmethod
  simp only [List.cons_append, List.append_assoc, List.map_eq_cons_iff, List.map_eq_append_iff,
    List.map_eq_nil_iff] at hused
  obtain ⟨first, _, rfl, rfl, second, _, rfl, rfl, head, _, rfl, hhead, third, _, rfl, rfl,
    fourth, _, rfl, rfl, inner, _, rfl, hinner, last, _, rfl, rfl, rfl⟩ := hused
  have hsplit : first :: second :: (head ++ third :: fourth :: (inner ++ [last])) ++ rest =
      first :: second :: (head ++ third :: fourth :: (inner ++ last :: rest)) := by simp
  refine ⟨hword, ?_⟩
  rw [hsplit, outcome_method, outcome_expect_one _ hword]
  simp only [bind, Except.bind, outcome_expect_one _ hname, parameters_parses hparams hhead,
    type_parses htype, outcome_block, outcome_expect_one _ hopening,
    stmts_parse stop hbody _ inner rest last hinner hclosing, Token.text_toLexeme]

/-- The name of a base is never empty, so it is kept. -/
theorem extendsClause_parses {base : Option String} (hextends : IsExtends lexemes base)
    (hused : used.map Token.toLexeme = lexemes) (hproper : AllProper used)
    {rest : List Token} (hrest : peek rest ≠ .extendsWord) :
    Continued.outcome (extendsClause stop (used ++ rest)) = .ok (base, rest) := by
  rw [outcome_extendsClause]
  cases hextends with
  | none =>
    obtain rfl := List.map_eq_nil_iff.mp hused
    exact if_neg hrest
  | some hword hname =>
    simp only [List.map_eq_cons_iff, List.map_eq_nil_iff] at hused
    obtain ⟨first, _, rfl, rfl, last, _, rfl, rfl, rfl⟩ := hused
    have hnonempty := hproper.tail.head_lexeme_isEmpty hname
    refine (if_pos hword).trans ?_
    simp only [List.cons_append, List.nil_append, List.tail_cons, bind, Except.bind,
      outcome_expect_one _ hname, hnonempty, Bool.false_eq_true, if_false, Token.text_toLexeme]

/-- The constructor ends the fields. -/
theorem startsDeclaration_of_isConstructor {base : Option String} {init : Constructor}
    (hinit : IsConstructor base lexemes init) (hused : used.map Token.toLexeme = lexemes)
    (rest : List Token) : ¬startsDeclaration (used ++ rest) := by
  obtain ⟨hword, _, _, _, _, _, _⟩ := hinit
  simp only [List.cons_append, List.map_eq_cons_iff] at hused
  obtain ⟨first, _, rfl, rfl, _⟩ := hused
  have hkind : first.kind = .initWord := hword
  simp [startsDeclaration, hkind, Kind.isType]

theorem fields_parse {decs : List VarDec} (hdecs : IsSequence IsDeclaration lexemes decs)
    (hused : used.map Token.toLexeme = lexemes) (hproper : AllProper used)
    {rest : List Token} (hrest : ¬startsDeclaration rest) :
    Continued.outcome (fields stop (used ++ rest)) = .ok (decs, rest) :=
  sequence_parses (outcome_fields stop)
    (fun rest hdec _ => (declaration_parses hdec rfl "field declaration" rest).symm)
    hdecs hused hproper hrest

theorem methods_parse {methods : List Method} (hmethods : IsSequence IsMethod lexemes methods)
    (hused : used.map Token.toLexeme = lexemes) (hproper : AllProper used)
    {rest : List Token} (hrest : peek rest ≠ .methodWord) :
    Continued.outcome (Parser.methods stop (used ++ rest)) = .ok (methods, rest) :=
  sequence_parses (outcome_methods stop) (fun rest hmethod _ => method_parses hmethod rfl rest)
    hmethods hused hproper hrest

/-- A class is read up to its closing brace, whatever comes after it. -/
theorem classDef_parses {classDef : ClassDef} (hclass : IsClass lexemes classDef)
    (hused : used.map Token.toLexeme = lexemes) (hproper : AllProper used)
    (rest : List Token) :
    peek (used ++ rest) = .classWord ∧
      Parsed.outcome (Parser.classDef stop (used ++ rest)) = .ok (classDef, rest) := by
  obtain ⟨hword, hname, hextends, hopening, hfields, hinit, hmethods, hclosing⟩ := hclass
  simp only [List.cons_append, List.append_assoc, List.map_eq_cons_iff, List.map_eq_append_iff,
    List.map_eq_nil_iff] at hused
  obtain ⟨first, _, rfl, rfl, second, _, rfl, rfl, extending, _, rfl, hextending, third, _, rfl,
    rfl, declarations, _, rfl, hdeclarations, constructing, _, rfl, hconstructing, defining, _,
    rfl, hdefining, last, _, rfl, rfl, rfl⟩ := hused
  have hsplit : first :: second :: (extending ++ third :: (declarations ++ (constructing ++
      (defining ++ [last])))) ++ rest = first :: second :: (extending ++ third ::
        (declarations ++ (constructing ++ (defining ++ last :: rest)))) := by simp
  have hproperBase := hproper.tail.tail
  have hproperFields := hproperBase.append_right.tail
  have hproperMethods := hproperFields.append_right.append_right
  have hthird : third.kind = .openBrace := hopening
  have hlast : last.kind = .closeBrace := hclosing
  have hbrace : peek (third :: (declarations ++ (constructing ++ (defining ++ last :: rest)))) ≠
      .extendsWord := by
    rw [peek_cons, hthird]
    decide
  have hend : peek (last :: rest) ≠ .methodWord := by
    rw [peek_cons, hlast]
    decide
  refine ⟨hword, ?_⟩
  rw [hsplit, outcome_classDef, outcome_expect_one _ hword]
  simp only [bind, Except.bind, outcome_expect_one _ hname,
    extendsClause_parses hextends hextending hproperBase.append_left hbrace,
    outcome_expect_one _ hopening,
    fields_parse hfields hdeclarations hproperFields.append_left
      (startsDeclaration_of_isConstructor hinit hconstructing _),
    constructor_parses hinit hconstructing,
    methods_parse hmethods hdefining hproperMethods.append_left hend,
    outcome_expect_one _ hclosing, Token.text_toLexeme]

theorem classes_parse {classes : List ClassDef} (hclasses : IsSequence IsClass lexemes classes)
    (hused : used.map Token.toLexeme = lexemes) (hproper : AllProper used)
    {rest : List Token} (hrest : peek rest ≠ .classWord) :
    Continued.outcome (Parser.classes stop (used ++ rest)) = .ok (classes, rest) :=
  sequence_parses (outcome_classes stop)
    (fun rest hclass hproper => classDef_parses hclass rfl hproper rest)
    hclasses hused hproper hrest

/-! ## Programs -/

/-- Statements are read the same way whatever comes behind them, as long as it is
no `else`. -/
theorem finalStatements_append {stmts : List Stmt} (hstmts : IsStmts lexemes stmts)
    (hused : used.map Token.toLexeme = lexemes) {rest : List Token}
    (hrest : peek rest ≠ .elseWord) :
    Continued.outcome (finalStatements stop (used ++ rest)) = (do
      let (others, after) ← Continued.outcome (finalStatements stop rest)
      .ok (stmts ++ others, after)) := by
  induction hstmts.isSequence generalizing used with
  | nil =>
    obtain rfl := List.map_eq_nil_iff.mp hused
    rw [List.nil_append]
    cases Continued.outcome (finalStatements stop rest) <;> rfl
  | cons hstmt hothers ih =>
    obtain ⟨first, after, rfl, rfl, hafter⟩ := List.map_eq_append_iff.mp hused
    have hstmts := isStmts_of_isSequence hothers
    have helse : peek (after ++ rest) ≠ .elseWord := hstmts.peek_ne hafter (by decide) hrest
    rw [List.append_assoc, outcome_finalStatements,
      if_neg (hstmt.starts.peek_ne _ (by decide)),
      stmt_parses stop hstmt first _ rfl fun _ => helse]
    simp only [bind, Except.bind, ih hstmts hafter]
    cases Continued.outcome (finalStatements stop rest) <;> rfl

/-- Behind a program only more statements can stand. -/
theorem program_append {program : Program} (hprogram : IsProgram lexemes program)
    (hused : used.map Token.toLexeme = lexemes) (hproper : AllProper used)
    {rest : List Token} (hrest : peek rest ≠ .elseWord) :
    Parsed.outcome (Parser.program stop (used ++ rest)) = (do
      let (others, after) ← Continued.outcome (finalStatements stop rest)
      .ok (⟨program.classes, program.stmts ++ others⟩, after)) := by
  obtain ⟨hclasses, hstmt, hstmts⟩ := hprogram
  simp only [List.append_assoc, List.map_eq_append_iff] at hused
  obtain ⟨defining, _, rfl, hdefining, first, after, rfl, rfl, rfl⟩ := hused
  have helse : peek (after ++ rest) ≠ .elseWord := hstmts.peek_ne rfl (by decide) hrest
  rw [List.append_assoc, List.append_assoc, outcome_program,
    classes_parse hclasses hdefining hproper.append_left
      (hstmt.starts.peek_ne (after ++ rest) (by decide))]
  refine (if_neg (hstmt.starts.peek_ne (after ++ rest) (by decide))).trans ?_
  rw [stmt_parses stop hstmt first _ rfl fun _ => helse]
  simp only [bind, Except.bind, finalStatements_append hstmts rfl hrest]
  cases Continued.outcome (finalStatements stop rest) <;> rfl

/-- What the grammar calls a program is parsed as one. -/
theorem program_parses {program : Program} (hprogram : IsProgram lexemes program)
    (hused : used.map Token.toLexeme = lexemes) (hproper : AllProper used)
    {rest : List Token} (hend : peek rest = .eof) :
    Parsed.outcome (Parser.program stop (used ++ rest)) = .ok (program, rest) := by
  rw [program_append hprogram hused hproper (by rw [hend]; decide), outcome_finalStatements,
    if_pos hend]
  simp only [bind, Except.bind, List.append_nil]

end Class

end Parser

end ClassLang
