import ClassLang.Proofs.WellFormed
import ClassLang.Proofs.Written

/-!
# Sources and trees

The source of a well-formed tree is read as that tree.  With the fact that only
well-formed trees are ever read, this says which trees have a source at all and
that printing and reading again changes nothing.
-/

namespace ClassLang

open Grammar

/-! ## Expressions -/

theorem Exp.source_arithmetic {left right : Exp} {op : Op} (hop : op ∈ arithmetic) :
    (Exp.binary left op right).source =
      "(" ++ (left.source ++ " " ++ op.source ++ " " ++ right.source) ++ ")" := by
  have hmember : op ≠ .member := by
    rintro rfl
    exact absurd hop (by decide)
  rw [Exp.source]
  · simp only [String.append_assoc]
  · exact hmember

mutual

/-- The source of an expression is written as that expression. -/
theorem Exp.written_source :
    ∀ exp : Exp, exp.isWellFormed = true → Written IsChain exp.source exp
  | .missing, hwell => by cases hwell
  | .int value, hwell => by
    simp only [Exp.isWellFormed, Bool.and_eq_true, decide_eq_true_eq] at hwell
    exact (written_int hwell.1 hwell.2).chain
  | .bool value, _ => (written_bool value).chain
  | .this, _ => written_this.chain
  | .name text, hwell => (written_name hwell).chain
  | .println value, hwell => (written_println (value.written_source hwell).sum).chain
  | .new className, hwell => (written_new hwell).chain
  | .call _ _, hwell => by cases hwell
  | .binary left op right, hwell => by
    by_cases hmember : op = .member
    · subst hmember
      rw [Exp.isWellFormed_member, Bool.and_eq_true] at hwell
      obtain ⟨hleft, hright⟩ := hwell
      cases right with
      | name text => exact written_member (left.written_source hleft) hright
      | call callee args =>
        cases callee with
        | name text =>
          rw [Exp.isMember, Bool.and_eq_true] at hright
          exact written_call (left.written_source hleft) hright.1
            (Exp.written_sources args hright.2)
        | _ => cases hright
      | _ => cases hright
    · have hop := Exp.mem_arithmetic_of_isWellFormed hmember hwell
      rw [Exp.isWellFormed_arithmetic hop, Bool.and_eq_true] at hwell
      rw [Exp.source_arithmetic hop]
      exact (written_parenthesized (written_operator (left.written_source hwell.1) hop
        (right.written_source hwell.2))).chain

theorem Exp.written_sources :
    ∀ exps : List Exp, Exp.allWellFormed exps = true → WrittenEach IsSum (Exp.sources exps) exps
  | [], _ => .nil
  | exp :: exps, hwell => by
    rw [Exp.allWellFormed, Bool.and_eq_true] at hwell
    exact .cons (exp.written_source hwell.1).sum (Exp.written_sources exps hwell.2)

end

/-! ## Statements -/

theorem Ty.exists_spells_source {ty : Ty} (hwell : ty.isWellFormed = true) :
    ∃ lexeme, Spells ty.source [lexeme] ∧ IsType lexeme ty := by
  cases ty with
  | missing => cases hwell
  | int => exact ⟨_, spells_word rfl (by decide) (by decide), .int (by decide)⟩
  | bool => exact ⟨_, spells_word rfl (by decide) (by decide), .bool (by decide)⟩
  | void => exact ⟨_, spells_word rfl (by decide) (by decide), .void (by decide)⟩
  | named className =>
    obtain ⟨name, hspells, hkind, rfl⟩ := exists_spells_name hwell
    exact ⟨name, hspells, .named hkind⟩

theorem VarDec.written_typedName {dec : VarDec} (hwell : dec.isWellFormed = true) :
    Written IsTypedName dec.typedName dec := by
  rw [VarDec.isWellFormed, Bool.and_eq_true] at hwell
  obtain ⟨lexeme, hspells, htype⟩ := Ty.exists_spells_source hwell.1
  exact ClassLang.written_typedName hspells htype hwell.2

theorem VarDec.written_source {dec : VarDec} (hwell : dec.isWellFormed = true) :
    Written IsDeclaration dec.source dec :=
  written_declaration (VarDec.written_typedName hwell)

/-- Statements in braces stand on one line. -/
theorem exists_spells_bracedLine {texts : List String} {stmts : List Stmt}
    (hstmts : WrittenEach IsStmt texts stmts) :
    ∃ lexemes, Spells (bracedLine texts) (openBrace :: lexemes ++ [closeBrace]) ∧
      IsStmts lexemes stmts := by
  cases hstmts with
  | nil => exact ⟨[], spells_emptyBraces.spells, .nil⟩
  | cons hstmt hmore =>
    obtain ⟨lexemes, hspells, hsequence⟩ := (WrittenEach.cons hstmt hmore).sequence
    have hpieces := SpellsEach.cons spells_openBrace.spells
      (hspells.append (.one spells_closeBrace.spells))
    exact ⟨lexemes, hpieces.intercalate spells_space startsApart_space,
      isStmts_of_isSequence hsequence⟩

mutual

/-- The source of a statement is written as that statement. -/
theorem Stmt.written_source :
    ∀ stmt : Stmt, stmt.isWellFormed = true → Written IsStmt stmt.source stmt
  | .missing, hwell => by cases hwell
  | .declare dec, hwell => written_declare (VarDec.written_source hwell)
  | .assign target value, hwell => by
    simp only [Stmt.isWellFormed, Bool.and_eq_true, decide_eq_true_eq] at hwell
    obtain ⟨⟨htarget, hleft⟩, hright⟩ := hwell
    exact written_assign (target.written_source hleft).sum htarget
      (value.written_source hright).sum
  | .expression exp, hwell => written_expression (exp.written_source hwell).sum
  | .whileLoop cond body, hwell => by
    rw [Stmt.isWellFormed, Bool.and_eq_true] at hwell
    exact written_whileLoop (cond.written_source hwell.1).sum (body.written_source hwell.2)
  | .breakLoop, _ => written_breakLoop
  | .returnNone, _ => written_returnNone
  | .returnValue value, hwell => written_returnValue (value.written_source hwell).sum
  | .ifThen cond yes, hwell => by
    rw [Stmt.isWellFormed, Bool.and_eq_true] at hwell
    exact written_ifThen (cond.written_source hwell.1).sum (yes.written_source hwell.2)
  | .ifElse cond yes no, hwell => by
    simp only [Stmt.isWellFormed, Bool.and_eq_true, Bool.not_eq_true'] at hwell
    obtain ⟨⟨⟨hcond, hyes⟩, hclosed⟩, hno⟩ := hwell
    exact written_ifElse (cond.written_source hcond).sum (yes.written_source hyes) hclosed
      (no.written_source hno)
  | .block stmts, hwell => by
    obtain ⟨lexemes, hspells, hstmts⟩ :=
      exists_spells_bracedLine (Stmt.written_sources stmts hwell)
    exact ⟨_, hspells, .block rfl hstmts rfl⟩

theorem Stmt.written_sources :
    ∀ stmts : List Stmt, Stmt.allWellFormed stmts = true →
      WrittenEach IsStmt (Stmt.sources stmts) stmts
  | [], _ => .nil
  | stmt :: stmts, hwell => by
    rw [Stmt.allWellFormed, Bool.and_eq_true] at hwell
    exact .cons (stmt.written_source hwell.1) (Stmt.written_sources stmts hwell.2)

end

/-! ## Classes and programs -/

theorem VarDec.written_parameters {params : List VarDec}
    (hwell : params.all VarDec.isWellFormed = true) :
    WrittenEach IsTypedName (params.map VarDec.typedName) params :=
  .map fun _ hmem => VarDec.written_typedName (List.all_eq_true.mp hwell _ hmem)

/-- The call of the base class's constructor is a piece of its own, or none at
all. -/
theorem exists_spells_superCall {base : Option String} {callsSuper : Bool} {args : List Exp}
    (hbase : (!callsSuper || base.isSome) = true) (hempty : (callsSuper || args.isEmpty) = true)
    (hwell : Exp.allWellFormed args = true) :
    ∃ lexemes call,
      SpellsEach (if callsSuper then
        ["super(" ++ Text.commaSeparated (Exp.sources args) ++ ");"] else []) lexemes ∧
      IsSuperCall lexemes call ∧ (call.isSome → base.isSome) ∧ callsSuper = call.isSome ∧
      args = call.getD [] := by
  cases callsSuper with
  | false =>
    have hnil : args = [] := List.isEmpty_iff.mp hempty
    exact ⟨[], none, .nil, .none, nofun, rfl, hnil⟩
  | true =>
    obtain ⟨lexemes, hspells, hcall⟩ := written_superCall (Exp.written_sources args hwell)
    exact ⟨lexemes, some args, .one hspells, hcall, fun _ => hbase, rfl, rfl⟩

/-- A constructor calls the base first, as the grammar asks. -/
theorem Constructor.written_source {base : Option String} {init : Constructor}
    (hwell : init.isWellFormed base = true) :
    Written (IsConstructor base) init.source init := by
  obtain ⟨params, callsSuper, superArgs, body⟩ := init
  simp only [Constructor.isWellFormed, Bool.and_eq_true] at hwell
  obtain ⟨⟨⟨⟨hparams, hbase⟩, hempty⟩, hargs⟩, hbody⟩ := hwell
  have hinit : SpellsClosed "init(" [⟨.initWord, "init".toList⟩, openParen] :=
    fun rest => .lexeme rfl (.lexeme rfl (.done rest))
  have hbrace : SpellsClosed ") \x7b" [closeParen, openBrace] :=
    fun rest => .lexeme rfl (.blank rfl (.lexeme rfl (.done rest)))
  obtain ⟨head, hheadSpells, hhead⟩ := parameterRules.exists_spells
    (VarDec.written_parameters hparams) [⟨.initWord, "init".toList⟩] [openBrace] hinit hbrace
    ⟨')', [' ', '\x7b'], rfl, rfl⟩
  obtain ⟨start, call, hstartSpells, hcall, hsome, rfl, rfl⟩ :=
    exists_spells_superCall hbase hempty hargs
  obtain ⟨inner, hinnerSpells, hinner⟩ := (Stmt.written_sources body hbody).sequence
  have hpieces := ((SpellsEach.cons hheadSpells.spells hstartSpells).append hinnerSpells).append
    (.one spells_closeBrace.spells)
  have hconstructor : IsConstructor base
      (⟨.initWord, "init".toList⟩ :: head ++ openBrace :: start ++ inner ++ [closeBrace])
      ⟨params, call.isSome, call.getD [], body⟩ :=
    .intro rfl hhead rfl hcall hsome (isStmts_of_isSequence hinner) rfl
  refine ⟨_, hpieces.intercalate spells_space startsApart_space, ?_⟩
  simpa using hconstructor

theorem Method.written_source {method : Method} (hwell : method.isWellFormed = true) :
    Written IsMethod method.source method := by
  obtain ⟨name, returnType, params, body⟩ := method
  simp only [Method.isWellFormed, Bool.and_eq_true] at hwell
  obtain ⟨⟨⟨hname, htype⟩, hparams⟩, hbody⟩ := hwell
  obtain ⟨lexeme, hnameSpells, hkind, rfl⟩ := exists_spells_name hname
  obtain ⟨type, htypeSpells, htype⟩ := Ty.exists_spells_source htype
  have hword : SpellsClosed "method " [⟨.methodWord, "method".toList⟩] :=
    fun rest => .lexeme rfl (.blank rfl (.done rest))
  have hclose : SpellsClosed ") " [closeParen] :=
    fun rest => .lexeme rfl (.blank rfl (.done rest))
  obtain ⟨head, hheadSpells, hhead⟩ := parameterRules.exists_spells
    (VarDec.written_parameters hparams) [] [] spells_openParen hclose ⟨')', [' '], rfl, rfl⟩
  obtain ⟨inner, hinnerSpells, hinner⟩ :=
    exists_spells_bracedLine (Stmt.written_sources body hbody)
  have hopens : StartsApart "(" := ⟨'(', [], rfl, rfl⟩
  have hheader := ((hword.append_spells hnameSpells).append_closed hheadSpells
    ((hopens.append _).append _)).append_spells htypeSpells
  have hall := (hheader.append_closed spells_space startsApart_space).append_spells hinnerSpells
  have hmethod : IsMethod (⟨.methodWord, "method".toList⟩ :: lexeme :: head ++ type :: openBrace ::
      inner ++ [closeBrace]) ⟨lexeme.text, returnType, params, body⟩ :=
    .intro rfl hkind hhead htype rfl hinner rfl
  simp only [Method.source, Method.header, VarDec.parameters, String.append_assoc] at hall ⊢
  refine ⟨_, hall, ?_⟩
  simpa using hmethod

/-- The header of a class spells its name and its base. -/
theorem ClassDef.exists_spells_header {classDef : ClassDef}
    (hname : Lexeme.isName classDef.name = true)
    (hbase : classDef.base.all Lexeme.isName = true) :
    ∃ name extending,
      Spells classDef.header (⟨.classWord, "class".toList⟩ :: name :: extending) ∧
        name.kind = .ident ∧ name.text = classDef.name ∧
        IsExtends extending classDef.base := by
  obtain ⟨className, base, fields, init, methods⟩ := classDef
  obtain ⟨name, hspells, hkind, htext⟩ := exists_spells_name hname
  have hclass : SpellsClosed "class " [⟨.classWord, "class".toList⟩] :=
    fun rest => .lexeme rfl (.blank rfl (.done rest))
  have hfront := hclass.append_spells hspells
  cases base with
  | none =>
    simp only [ClassDef.header, String.append_empty]
    exact ⟨name, [], hfront, hkind, htext, .none⟩
  | some base =>
    obtain ⟨baseName, hbaseSpells, hbaseKind, rfl⟩ := exists_spells_name hbase
    have hword : SpellsClosed " extends " [⟨.extendsWord, "extends".toList⟩] :=
      fun rest => .blank rfl (.lexeme rfl (.blank rfl (.done rest)))
    have hall := (hfront.append_closed hword ⟨' ', "extends ".toList, rfl, rfl⟩).append_spells
      hbaseSpells
    simp only [ClassDef.header, String.append_assoc] at hall ⊢
    exact ⟨name, [_, baseName], hall, hkind, htext, .some rfl hbaseKind⟩

/-- The source of a class is written as that class. -/
theorem ClassDef.written_source {classDef : ClassDef} (hwell : classDef.isWellFormed = true) :
    Written IsClass classDef.source classDef := by
  simp only [ClassDef.isWellFormed, Bool.and_eq_true] at hwell
  obtain ⟨⟨⟨⟨hname, hbase⟩, hfields⟩, hinit⟩, hmethods⟩ := hwell
  obtain ⟨name, extending, hheaderSpells, hkind, htext, hextending⟩ :=
    ClassDef.exists_spells_header hname hbase
  have hfieldsWritten : WrittenEach IsDeclaration (classDef.fields.map VarDec.source)
      classDef.fields :=
    .map fun _ hmem => VarDec.written_source (List.all_eq_true.mp hfields _ hmem)
  have hmethodsWritten : WrittenEach IsMethod (classDef.methods.map Method.source)
      classDef.methods :=
    .map fun _ hmem => Method.written_source (List.all_eq_true.mp hmethods _ hmem)
  obtain ⟨declarations, hfieldsSpell, hdeclarations⟩ := hfieldsWritten.sequence
  obtain ⟨constructing, hinitSpells, hconstructing⟩ := Constructor.written_source hinit
  obtain ⟨defining, hmethodsSpell, hdefining⟩ := hmethodsWritten.sequence
  have hopening := SpellsEach.cons hheaderSpells (.cons spells_openBrace.spells hfieldsSpell)
  have hpieces := (hopening.append (.cons hinitSpells hmethodsSpell)).append
    (.one spells_closeBrace.spells)
  have hclass : IsClass (⟨.classWord, "class".toList⟩ :: name :: extending ++ openBrace ::
      declarations ++ constructing ++ defining ++ [closeBrace])
      ⟨name.text, classDef.base, classDef.fields, classDef.init, classDef.methods⟩ :=
    .intro rfl hkind hextending rfl hdeclarations hconstructing hdefining rfl
  rw [htext] at hclass
  refine ⟨_, hpieces.intercalate spells_space startsApart_space, ?_⟩
  simpa using hclass

/-- The source of a program is written as that program. -/
theorem Program.written_source {program : Program} (hwell : program.isWellFormed = true) :
    Written IsProgram program.source program := by
  obtain ⟨classes, stmts⟩ := program
  simp only [Program.isWellFormed, Bool.and_eq_true] at hwell
  obtain ⟨⟨hclasses, hne⟩, hstmts⟩ := hwell
  have hclassesWritten : WrittenEach IsClass (classes.map ClassDef.source) classes :=
    .map fun _ hmem => ClassDef.written_source (List.all_eq_true.mp hclasses _ hmem)
  obtain ⟨defining, hclassesSpell, hdefining⟩ := hclassesWritten.sequence
  obtain ⟨lexemes, hstmtsSpell, hsequence⟩ := (Stmt.written_sources stmts hstmts).sequence
  have hspells := (hclassesSpell.append hstmtsSpell).intercalate spells_newline
    ⟨'\n', [], rfl, rfl⟩
  cases hsequence with
  | nil => cases hne
  | cons hstmt hothers =>
    rw [← List.append_assoc] at hspells
    exact ⟨_, hspells, .intro hdefining hstmt (isStmts_of_isSequence hothers)⟩

/-! ## Reading sources -/

/-- What is written as a program is read as it. -/
theorem exists_tokens_of_written {text : String} {program : Program}
    (hwritten : Written IsProgram text program) (file : String) :
    ∃ tokens, tokenize text file = .ok tokens ∧ Program.ofTokens tokens = .ok program := by
  obtain ⟨lexemes, hspells, hprogram⟩ := hwritten
  obtain ⟨tokens, htokens, henclose⟩ := tokenize_of_scans hspells.scans file
  exact ⟨tokens, htokens,
    (Program.ofTokens_eq_ok_iff_isProgram hspells.scans henclose).mpr hprogram⟩

theorem Program.ofSource_of_source_eq {program : Program} {source : String}
    (hwell : program.isWellFormed = true) (hsource : program.source = source) (file : String) :
    Program.ofSource source file = .ok program := by
  obtain ⟨tokens, htokens, hprogram⟩ :=
    exists_tokens_of_written (Program.written_source hwell) file
  rw [← hsource, Program.ofSource, htokens]
  exact hprogram

/-- Programs that are read are well-formed. -/
theorem Program.isWellFormed_of_ofTokens {source file : String} {tokens : List Token}
    {program : Program} (htokens : tokenize source file = .ok tokens)
    (hprogram : Program.ofTokens tokens = .ok program) : program.isWellFormed = true := by
  obtain ⟨lexemes, hscans, henclose⟩ := scans_of_tokenize htokens
  exact ((Program.ofTokens_eq_ok_iff_isProgram hscans henclose).mp
    hprogram).isWellFormed hscans.proper

/-- The trees that have a source are the well-formed ones. -/
theorem exists_source_iff_isWellFormed (program : Program) (file : String) :
    (∃ source, Program.ofSource source file = .ok program) ↔ program.isWellFormed = true := by
  constructor
  · rintro ⟨source, heq⟩
    obtain ⟨tokens, htokens, hprogram⟩ := Parser.bind_eq_ok heq
    exact Program.isWellFormed_of_ofTokens htokens hprogram
  · intro hwell
    obtain ⟨tokens, htokens, hprogram⟩ :=
      exists_tokens_of_written (Program.written_source hwell) file
    refine ⟨program.source, ?_⟩
    rw [Program.ofSource, htokens]
    exact hprogram

/-- Printing a program that was read and reading it again gives the program
back, whatever the files are called. -/
theorem read_source_of_read {source file : String} {tokens : List Token} {program : Program}
    (htokens : tokenize source file = .ok tokens)
    (hprogram : Program.ofTokens tokens = .ok program) (other : String) :
    ∃ printed, tokenize program.source other = .ok printed ∧
      Program.ofTokens printed = .ok program := by
  have hwell := Program.isWellFormed_of_ofTokens htokens hprogram
  exact exists_tokens_of_written (Program.written_source hwell) other

/-- The source `x=(1-2)-y;` is printed with more blanks and more parentheses. -/
theorem read_source_of_read_difference :
    ∃ printed, tokenize "x = ((1 - 2) - y);" "printed" = .ok printed ∧
      Program.ofTokens printed = .ok ⟨[], [.assign (.name "x")
        (.binary (.binary (.int 1) .minus (.int 2)) .minus (.name "y"))]⟩ := by
  have hscans : Scans "x=(1-2)-y;".toList
      [⟨.ident, ['x']⟩, ⟨.equals, ['=']⟩, openParen, ⟨.int, ['1']⟩, ⟨.minus, ['-']⟩,
        ⟨.int, ['2']⟩, closeParen, ⟨.minus, ['-']⟩, ⟨.ident, ['y']⟩, ⟨.semicolon, [';']⟩] [] :=
    .lexeme rfl (.lexeme rfl (.lexeme rfl (.lexeme rfl (.lexeme rfl (.lexeme rfl (.lexeme rfl
      (.lexeme rfl (.lexeme rfl (.lexeme rfl (.done _))))))))))
  obtain ⟨tokens, htokens, henclose⟩ := tokenize_of_scans hscans "typed"
  have hx : IsSum [⟨.ident, ['x']⟩] (.name "x") := .product (.chain (.primary (.name rfl)))
  have hone : IsChain [⟨.int, ['1']⟩] (.int 1) := .primary (.int rfl rfl (by decide))
  have htwo : IsChain [⟨.int, ['2']⟩] (.int 2) := .primary (.int rfl rfl (by decide))
  have hminus : (Kind.minus, Op.minus) ∈ sumOperators := by decide
  have hinner : IsSum [openParen, ⟨.int, ['1']⟩, ⟨.minus, ['-']⟩, ⟨.int, ['2']⟩, closeParen]
      (.binary (.int 1) .minus (.int 2)) :=
    .product (.chain (.primary (.parenthesized rfl
      (.operator (.product (.chain hone)) hminus (.chain htwo)) rfl)))
  have hprogram := (Program.ofTokens_eq_ok_iff_isProgram hscans henclose).mpr
    (.intro .nil (.assign hx (.name "x") rfl
      (.operator hinner hminus (.chain (.primary (.name rfl)))) rfl) .nil)
  exact read_source_of_read htokens hprogram "printed"

end ClassLang
