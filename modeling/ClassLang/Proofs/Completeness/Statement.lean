import ClassLang.Proofs.Completeness.Expression
import ClassLang.Proofs.Soundness.Statement

/-!
# The parser reads every statement of the grammar

What follows a statement is arbitrary, unless the statement ends in an `if`
that has no `else`: then it must not be an `else`.
-/

namespace ClassLang

open Grammar

namespace Parser

/-! ## Parts of statements -/

section Parts

variable {stop : Span} {lexemes : List Lexeme} {used : List Token}

theorem type_parses {token : Token} {ty : Ty} (htype : IsType token.toLexeme ty)
    (rest : List Token) : Parsed.outcome (type stop (token :: rest)) = .ok (ty, rest) := by
  rw [outcome_type]
  cases htype
  all_goals
    next hword =>
    have hkind := hword
    rw [Token.kind_toLexeme] at hkind
    rw [outcome_expect_cons stop _ _ (by rw [hkind]; decide)]
    simp only [bind, Except.bind, hkind, Token.text_toLexeme]

/-- A type and a name are parsed, whatever comes after them. -/
theorem typedName_parses {dec : VarDec} (hdec : IsTypedName lexemes dec)
    (hused : used.map Token.toLexeme = lexemes) (context : String) (rest : List Token) :
    Parsed.outcome (typedName stop context (used ++ rest)) = .ok (dec, rest) := by
  obtain ⟨htype, hname⟩ := hdec
  simp only [List.map_eq_cons_iff, List.map_eq_nil_iff] at hused
  obtain ⟨type, _, rfl, rfl, name, _, rfl, rfl, rfl⟩ := hused
  simp only [List.cons_append, List.nil_append]
  rw [outcome_typedName, type_parses htype]
  simp only [bind, Except.bind, outcome_expect_one _ hname, Token.text_toLexeme]

/-- A type and a name can be told from an expression by the first two tokens. -/
theorem startsDeclaration_of_isTypedName {dec : VarDec} (hdec : IsTypedName lexemes dec)
    (hused : used.map Token.toLexeme = lexemes) (rest : List Token) :
    startsDeclaration (used ++ rest) = true := by
  obtain ⟨htype, hname⟩ := hdec
  simp only [List.map_eq_cons_iff, List.map_eq_nil_iff] at hused
  obtain ⟨type, _, rfl, rfl, name, _, rfl, rfl, rfl⟩ := hused
  rw [Token.kind_toLexeme] at hname
  cases htype
  all_goals simp_all [startsDeclaration, Kind.isType]

/-- A declaration is parsed and is recognised as one. -/
theorem declaration_parses {dec : VarDec} (hdec : IsDeclaration lexemes dec)
    (hused : used.map Token.toLexeme = lexemes) (context : String) (rest : List Token) :
    Parsed.outcome (declaration stop context (used ++ rest)) = .ok (dec, rest) ∧
      startsDeclaration (used ++ rest) = true := by
  obtain ⟨hdec, hsemicolon⟩ := hdec
  simp only [List.map_eq_append_iff, List.map_eq_cons_iff, List.map_eq_nil_iff] at hused
  obtain ⟨names, _, rfl, hnames, last, _, rfl, rfl, rfl⟩ := hused
  rw [List.append_assoc, List.singleton_append]
  refine ⟨?_, startsDeclaration_of_isTypedName hdec hnames _⟩
  rw [outcome_declaration, typedName_parses hdec hnames]
  simp only [bind, Except.bind, outcome_expect_one _ hsemicolon]

theorem isType_eq_false_of_mem_primaryKinds :
    ∀ kind ∈ primaryKinds, kind.isType = false := by
  decide

/-- No expression starts with two names in a row, so it is never taken for a
declaration. -/
theorem startsDeclaration_of_isSum {exp : Exp} (hexp : IsSum lexemes exp)
    (hused : used.map Token.toLexeme = lexemes) {rest : List Token}
    (hrest : peek rest ∉ .ident :: Level.sum.extensions) :
    startsDeclaration (used ++ rest) = false := by
  subst hused
  obtain ⟨_, _, hfirst, hkinds⟩ := hexp.starts
  obtain ⟨first, after, rfl, rfl, -⟩ := List.map_eq_cons_iff.mp hfirst
  apply Bool.eq_false_iff.mpr
  intro hstarts
  simp only [List.cons_append, startsDeclaration, Bool.or_eq_true, Bool.and_eq_true,
    decide_eq_true_eq] at hstarts
  rcases hstarts with htype | ⟨hident, hsecond⟩
  · rw [← Token.kind_toLexeme, isType_eq_false_of_mem_primaryKinds _ hkinds] at htype
    cases htype
  · -- Read as a name, the expression would end before the second name.
    have hwhole := (sum_parses default hexp).whole rfl fun hmem => hrest (.tail _ hmem)
    have hname : Parsed.outcome (binary default .sum ([first] ++ (after ++ rest))) =
        .ok (.name first.toLexeme.text, after ++ rest) :=
      (sum_parses default (.product (.chain (.primary (.name hident))))).whole rfl
        (by rw [hsecond]; decide)
    have hsame := hname.symm.trans hwhole
    simp only [Except.ok.injEq, Prod.mk.injEq] at hsame
    rw [hsame.2] at hsecond
    exact hrest (by rw [hsecond]; exact List.mem_cons_self)

/-- The condition of a loop or a branch ends at its closing parenthesis. -/
theorem head_parses {kind : Kind} {cond : Exp} (hhead : IsHead kind lexemes cond)
    (hused : used.map Token.toLexeme = lexemes) :
    ∃ word after, used = word :: after ∧ word.kind = kind ∧
      ∀ (context : String) (rest : List Token),
        Parsed.outcome (condition stop context (after ++ rest)) = .ok (cond, rest) := by
  obtain ⟨hword, hopening, hcond, hclosing⟩ := hhead
  simp only [List.cons_append, List.map_eq_cons_iff, List.map_eq_append_iff,
    List.map_eq_nil_iff] at hused
  obtain ⟨word, _, rfl, rfl, opening, _, rfl, rfl, middle, _, rfl, hmiddle, last, _, rfl, rfl,
    rfl⟩ := hused
  refine ⟨word, _, rfl, hword, fun context rest => ?_⟩
  rw [List.cons_append, List.append_assoc middle, List.singleton_append, outcome_condition,
    outcome_expect_one _ hopening]
  simp only [bind, Except.bind, (sum_parses stop hcond).before hmiddle hclosing (by decide),
    outcome_expect_one _ hclosing]

end Parts

/-! ## Statements -/

section Statements

variable (stop : Span)

def StmtParses (lexemes : List Lexeme) (stmt : Stmt) : Prop :=
  ∀ used rest : List Token, used.map Token.toLexeme = lexemes →
    (stmt.endsOpen = true → peek rest ≠ .elseWord) →
    Parsed.outcome (statement stop (used ++ rest)) = .ok (stmt, rest)

def StmtsParse (lexemes : List Lexeme) (stmts : List Stmt) : Prop :=
  ∀ (context : String) (used rest : List Token) (closing : Token),
    used.map Token.toLexeme = lexemes → closing.toLexeme.kind = .closeBrace →
    Parsed.outcome (statements stop context (used ++ closing :: rest)) = .ok (stmts, rest)

variable {stop} {lexemes : List Lexeme}

theorem StmtParses.declare {dec : VarDec} (hdec : IsDeclaration lexemes dec) :
    StmtParses stop lexemes (.declare dec) := by
  intro used rest hused _
  subst hused
  obtain ⟨hparses, hstarts⟩ := declaration_parses hdec rfl "variable declaration" rest
  rw [outcome_statement_plain (hdec.starts.peek_not_mem rest (by decide)), if_pos hstarts,
    hparses]
  rfl

theorem StmtParses.expression {semicolon : Lexeme} {exp : Exp} (hexp : IsSum lexemes exp)
    (hsemicolon : semicolon.kind = .semicolon) :
    StmtParses stop (lexemes ++ [semicolon]) (.expression exp) := by
  intro used rest hused _
  simp only [List.map_eq_append_iff, List.map_eq_cons_iff, List.map_eq_nil_iff] at hused
  obtain ⟨front, _, rfl, rfl, last, _, rfl, rfl, rfl⟩ := hused
  have hkind : last.kind = .semicolon := hsemicolon
  rw [List.append_assoc, List.singleton_append,
    outcome_statement_plain (hexp.starts.peek_not_mem _ (by decide)),
    startsDeclaration_of_isSum hexp rfl (by rw [peek_cons, hkind]; decide),
    if_neg Bool.false_ne_true, outcome_expressionStatement,
    (sum_parses stop hexp).before rfl hsemicolon (by decide)]
  simp only [bind, Except.bind, peek_cons, hkind, reduceCtorEq, false_and, if_false,
    outcome_expect_one _ hsemicolon]

/-- The sign after something that can be assigned to makes an assignment. -/
theorem StmtParses.assign {right : List Lexeme} {sign semicolon : Lexeme} {target value : Exp}
    (hleft : IsSum lexemes target) (htarget : IsTarget target) (hsign : sign.kind = .equals)
    (hright : IsSum right value) (hsemicolon : semicolon.kind = .semicolon) :
    StmtParses stop (lexemes ++ sign :: right ++ [semicolon]) (.assign target value) := by
  intro used rest hused _
  simp only [List.append_assoc, List.cons_append, List.map_eq_append_iff, List.map_eq_cons_iff,
    List.map_eq_nil_iff] at hused
  obtain ⟨front, _, rfl, rfl, middle, _, rfl, rfl, back, _, rfl, rfl, last, _, rfl, rfl, rfl⟩ :=
    hused
  have hkind : middle.kind = .equals := hsign
  rw [List.append_assoc, List.cons_append, List.append_assoc back, List.singleton_append,
    outcome_statement_plain (hleft.starts.peek_not_mem _ (by decide)),
    startsDeclaration_of_isSum hleft rfl (by rw [peek_cons, hkind]; decide),
    if_neg Bool.false_ne_true, outcome_expressionStatement,
    (sum_parses stop hleft).before rfl hsign (by decide)]
  simp only [bind, Except.bind, peek_cons, hkind, isAssignable_iff_isTarget.mpr htarget, and_self,
    if_true, List.tail_cons, (sum_parses stop hright).before rfl hsemicolon (by decide),
    outcome_expect_one _ hsemicolon]

theorem StmtParses.breakLoop {word semicolon : Lexeme} (hword : word.kind = .breakWord)
    (hsemicolon : semicolon.kind = .semicolon) :
    StmtParses stop [word, semicolon] .breakLoop := by
  intro used rest hused _
  simp only [List.map_eq_cons_iff, List.map_eq_nil_iff] at hused
  obtain ⟨first, _, rfl, rfl, last, _, rfl, rfl, rfl⟩ := hused
  have hkind : first.kind = .breakWord := hword
  simp only [List.cons_append, List.nil_append]
  rw [outcome_statement, peek_cons, hkind]
  simp only [List.tail_cons, bind, Except.bind, outcome_expect_one _ hsemicolon]

theorem StmtParses.returnNone {word semicolon : Lexeme} (hword : word.kind = .returnWord)
    (hsemicolon : semicolon.kind = .semicolon) :
    StmtParses stop [word, semicolon] .returnNone := by
  intro used rest hused _
  simp only [List.map_eq_cons_iff, List.map_eq_nil_iff] at hused
  obtain ⟨first, _, rfl, rfl, last, _, rfl, rfl, rfl⟩ := hused
  have hkind : first.kind = .returnWord := hword
  simp only [List.cons_append, List.nil_append]
  rw [outcome_statement, peek_cons, hkind]
  dsimp only
  rw [List.tail_cons, outcome_returned]
  exact if_pos hsemicolon

theorem StmtParses.returnValue {word semicolon : Lexeme} {value : Exp}
    (hword : word.kind = .returnWord) (hvalue : IsSum lexemes value)
    (hsemicolon : semicolon.kind = .semicolon) :
    StmtParses stop (word :: lexemes ++ [semicolon]) (.returnValue value) := by
  intro used rest hused _
  simp only [List.cons_append, List.map_eq_append_iff, List.map_eq_cons_iff,
    List.map_eq_nil_iff] at hused
  obtain ⟨first, _, rfl, rfl, middle, _, rfl, rfl, last, _, rfl, rfl, rfl⟩ := hused
  have hkind : first.kind = .returnWord := hword
  rw [List.cons_append, List.append_assoc, List.singleton_append, outcome_statement, peek_cons,
    hkind]
  dsimp only
  rw [List.tail_cons, outcome_returned, if_neg (hvalue.starts.peek_ne _ (by decide)),
    (sum_parses stop hvalue).before rfl hsemicolon (by decide)]
  simp only [bind, Except.bind, outcome_expect_one _ hsemicolon]

theorem StmtParses.block {opening closing : Lexeme} {stmts : List Stmt}
    (hopening : opening.kind = .openBrace) (hstmts : StmtsParse stop lexemes stmts)
    (hclosing : closing.kind = .closeBrace) :
    StmtParses stop (opening :: lexemes ++ [closing]) (.block stmts) := by
  intro used rest hused _
  simp only [List.cons_append, List.map_eq_append_iff, List.map_eq_cons_iff,
    List.map_eq_nil_iff] at hused
  obtain ⟨first, _, rfl, rfl, middle, _, rfl, hmiddle, last, _, rfl, rfl, rfl⟩ := hused
  have hkind : first.kind = .openBrace := hopening
  rw [List.cons_append, List.append_assoc, List.singleton_append, outcome_statement, peek_cons,
    hkind]
  dsimp only
  rw [List.tail_cons, hstmts "block" middle rest last hmiddle hclosing]
  rfl

theorem StmtParses.whileLoop {head : List Lexeme} {cond : Exp} {body : Stmt}
    (hhead : IsHead .whileWord head cond) (hbody : StmtParses stop lexemes body) :
    StmtParses stop (head ++ lexemes) (.whileLoop cond body) := by
  intro used rest hused hrest
  obtain ⟨usedHead, usedBody, rfl, hheadUsed, hbodyUsed⟩ := List.map_eq_append_iff.mp hused
  obtain ⟨word, after, rfl, hword, hcond⟩ := head_parses hhead hheadUsed
  rw [List.append_assoc, List.cons_append, outcome_statement, peek_cons, hword]
  dsimp only
  rw [List.tail_cons, hcond]
  simp only [bind, Except.bind, hbody usedBody rest hbodyUsed hrest]

/-- A branch without an `else` is parsed only if none follows. -/
theorem StmtParses.ifThen {head : List Lexeme} {cond : Exp} {yes : Stmt}
    (hhead : IsHead .ifWord head cond) (hyes : StmtParses stop lexemes yes) :
    StmtParses stop (head ++ lexemes) (.ifThen cond yes) := by
  intro used rest hused hrest
  have helse : peek rest ≠ .elseWord := hrest rfl
  obtain ⟨usedHead, usedYes, rfl, hheadUsed, hyesUsed⟩ := List.map_eq_append_iff.mp hused
  obtain ⟨word, after, rfl, hword, hcond⟩ := head_parses hhead hheadUsed
  rw [List.append_assoc, List.cons_append, outcome_statement, peek_cons, hword]
  dsimp only
  rw [List.tail_cons, hcond]
  simp only [bind, Except.bind, hyes usedYes rest hyesUsed fun _ => helse, helse, if_false]

/-- The first branch is closed, so it leaves the `else` alone. -/
theorem StmtParses.ifElse {head others : List Lexeme} {joint : Lexeme} {cond : Exp}
    {yes no : Stmt} (hhead : IsHead .ifWord head cond) (hyes : StmtParses stop lexemes yes)
    (hclosed : yes.endsOpen = false) (hjoint : joint.kind = .elseWord)
    (hno : StmtParses stop others no) :
    StmtParses stop (head ++ lexemes ++ joint :: others) (.ifElse cond yes no) := by
  intro used rest hused hrest
  simp only [List.append_assoc, List.map_eq_append_iff, List.map_eq_cons_iff] at hused
  obtain ⟨usedHead, _, rfl, hheadUsed, usedYes, _, rfl, hyesUsed, token, usedNo, rfl, rfl,
    hnoUsed⟩ := hused
  obtain ⟨word, after, rfl, hword, hcond⟩ := head_parses hhead hheadUsed
  have hkind : token.kind = .elseWord := hjoint
  have hopen : yes.endsOpen = true → peek (token :: (usedNo ++ rest)) ≠ .elseWord := by
    rw [hclosed]
    exact fun hfalse => by cases hfalse
  rw [List.append_assoc, List.append_assoc, List.cons_append, List.cons_append,
    outcome_statement, peek_cons, hword]
  dsimp only
  rw [List.tail_cons, hcond]
  simp only [bind, Except.bind, hyes usedYes _ hyesUsed hopen, peek_cons, hkind, if_true,
    List.tail_cons, hno usedNo rest hnoUsed hrest]

theorem StmtsParse.nil : StmtsParse stop [] [] := by
  intro context used rest closing hused hclosing
  obtain rfl := List.map_eq_nil_iff.mp hused
  rw [List.nil_append, outcome_statements]
  exact if_pos hclosing

/-- The first token says that there is another statement. -/
theorem StmtsParse.cons {others : List Lexeme} {stmt : Stmt} {stmts : List Stmt}
    (hstarts : StartsWith statementKinds lexemes) (hstmt : StmtParses stop lexemes stmt)
    (hothers : IsStmts others stmts) (hstmts : StmtsParse stop others stmts) :
    StmtsParse stop (lexemes ++ others) (stmt :: stmts) := by
  intro context used rest closing hused hclosing
  obtain ⟨first, after, rfl, rfl, rfl⟩ := List.map_eq_append_iff.mp hused
  have hkind : closing.kind = .closeBrace := hclosing
  have helse : peek (after ++ closing :: rest) ≠ .elseWord :=
    hothers.peek_ne rfl (by decide) (by rw [peek_cons, hkind]; decide)
  rw [List.append_assoc, outcome_statements, if_neg (hstarts.peek_ne _ (by decide)),
    if_neg (hstarts.peek_ne _ (by decide)), hstmt first _ rfl fun _ => helse]
  simp only [bind, Except.bind, hstmts context after rest closing rfl hclosing]

end Statements

section Derivations

variable (stop : Span)

mutual

/-- What the grammar calls a statement is parsed as one. -/
theorem stmt_parses : ∀ {lexemes : List Lexeme} {stmt : Stmt}, IsStmt lexemes stmt →
    StmtParses stop lexemes stmt
  | _, _, .declare hdec => .declare hdec
  | _, _, .expression hexp hsemicolon => .expression hexp hsemicolon
  | _, _, .assign hleft htarget hsign hright hsemicolon =>
    .assign hleft htarget hsign hright hsemicolon
  | _, _, .breakLoop hword hsemicolon => .breakLoop hword hsemicolon
  | _, _, .returnNone hword hsemicolon => .returnNone hword hsemicolon
  | _, _, .returnValue hword hvalue hsemicolon => .returnValue hword hvalue hsemicolon
  | _, _, .block hopening hstmts hclosing => .block hopening (stmts_parse hstmts) hclosing
  | _, _, .whileLoop hhead hbody => .whileLoop hhead (stmt_parses hbody)
  | _, _, .ifThen hhead hyes => .ifThen hhead (stmt_parses hyes)
  | _, _, .ifElse hhead hyes hclosed hjoint hno =>
    .ifElse hhead (stmt_parses hyes) hclosed hjoint (stmt_parses hno)

theorem stmts_parse : ∀ {lexemes : List Lexeme} {stmts : List Stmt}, IsStmts lexemes stmts →
    StmtsParse stop lexemes stmts
  | _, _, .nil => .nil
  | _, _, .cons hstmt hstmts =>
    .cons hstmt.starts (stmt_parses hstmt) hstmts (stmts_parse hstmts)

end

end Derivations

end Parser

end ClassLang
