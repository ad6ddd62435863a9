import ClassLang.Proofs.Soundness.Expression

/-!
# The parser reads only statements of the grammar

Besides the derivation, a statement that an `else` could still join promises
that no `else` follows it.  This is what makes an `else` belong to the nearest
`if`.
-/

namespace ClassLang

open Grammar

namespace Parser

/-- What can be assigned to is a target of the grammar. -/
theorem isAssignable_iff_isTarget {exp : Exp} : exp.isAssignable = true ↔ IsTarget exp := by
  constructor
  · intro heq
    unfold Exp.isAssignable at heq
    split at heq
    · exact .name _
    · exact .member _ _
    · cases heq
  · intro htarget
    cases htarget <;> rfl

/-- A statement was read, and no `else` follows that could still join it. -/
structure ReadsStmt (tokens : List Token) (stmt : Stmt) (rest : List Token) : Prop where
  reads : Reads IsStmt tokens stmt rest
  ends : stmt.endsOpen = true → peek rest ≠ .elseWord

theorem ReadsStmt.of_closed {tokens rest : List Token} {stmt : Stmt}
    (hreads : Reads IsStmt tokens stmt rest) (hclosed : stmt.endsOpen = false) :
    ReadsStmt tokens stmt rest := by
  refine ⟨hreads, ?_⟩
  intro hopen
  rw [hclosed] at hopen
  cases hopen

section Parts

variable {stop : Span} {context : String} {tokens rest : List Token}

theorem reads_type {ty : Ty} (heq : Parsed.outcome (type stop tokens) = .ok (ty, rest)) :
    ∃ token, tokens = token :: rest ∧ IsType token.toLexeme ty := by
  rw [outcome_type] at heq
  obtain ⟨⟨token, after⟩, htoken, hnext⟩ := bind_eq_ok heq
  obtain ⟨rfl, hkinds⟩ := eq_cons_of_outcome_expect htoken
  dsimp only at hnext
  split at hnext
  all_goals cases hnext; refine ⟨token, rfl, ?_⟩
  · next hkind => exact .int hkind
  · next hkind => exact .bool hkind
  · next hkind => exact .void hkind
  · next hint hbool hvoid =>
    have hident : token.toLexeme.kind = .ident := by simp_all
    have hnamed := IsType.named hident
    rwa [Token.text_toLexeme] at hnamed

theorem reads_typedName {dec : VarDec}
    (heq : Parsed.outcome (typedName stop context tokens) = .ok (dec, rest)) :
    Reads IsTypedName tokens dec rest := by
  rw [outcome_typedName] at heq
  obtain ⟨⟨ty, afterType⟩, hty, hname⟩ := bind_eq_ok heq
  obtain ⟨type, rfl, htype⟩ := reads_type hty
  obtain ⟨name, _, rfl, hident, hlast⟩ := exists_cons_of_expect hname
  cases hlast
  have hdec := IsTypedName.intro htype hident
  rw [Token.text_toLexeme] at hdec
  exact ⟨[type, name], rfl, hdec⟩

theorem reads_declaration {dec : VarDec}
    (heq : Parsed.outcome (declaration stop context tokens) = .ok (dec, rest)) :
    Reads IsDeclaration tokens dec rest := by
  rw [outcome_declaration] at heq
  obtain ⟨⟨dec, afterName⟩, hname, hsemicolon⟩ := bind_eq_ok heq
  obtain ⟨used, rfl, hused⟩ := reads_typedName hname
  obtain ⟨semicolon, _, rfl, hkind, hlast⟩ := exists_cons_of_expect hsemicolon
  cases hlast
  have hdec := IsDeclaration.intro hused hkind
  exact ⟨used ++ [semicolon], by simp, by simpa using hdec⟩

variable (hproper : AllProper tokens)

include hproper

theorem reads_condition {kind : Kind} {word : Token} {cond : Exp}
    (hword : word.toLexeme.kind = kind)
    (heq : Parsed.outcome (condition stop context tokens) = .ok (cond, rest)) :
    Reads (IsHead kind) (word :: tokens) cond rest := by
  rw [outcome_condition] at heq
  obtain ⟨opening, afterOpen, rfl, hopening, hcond⟩ := exists_cons_of_expect heq
  obtain ⟨⟨cond, afterCond⟩, hcond, hclose⟩ := bind_eq_ok hcond
  obtain ⟨used, rfl, hused⟩ := (expressionsSound stop afterOpen hproper.tail).binary hcond
  obtain ⟨closing, _, rfl, hclosing, hlast⟩ := exists_cons_of_expect hclose
  cases hlast
  have hhead := IsHead.intro hword hopening hused hclosing
  exact ⟨word :: opening :: used ++ [closing], by simp, by simpa using hhead⟩

/-- Whatever follows an expression, it is an assignment or an expression of the
grammar. -/
theorem reads_expressionStatement {stmt : Stmt}
    (heq : Parsed.outcome (expressionStatement stop tokens) = .ok (stmt, rest)) :
    ReadsStmt tokens stmt rest := by
  rw [outcome_expressionStatement] at heq
  obtain ⟨⟨exp, after⟩, hexp, hnext⟩ := bind_eq_ok heq
  obtain ⟨used, rfl, hused⟩ := (expressionsSound stop tokens hproper).binary hexp
  dsimp only at hnext
  split at hnext
  · next hassign =>
    obtain ⟨sign, afterSign, rfl, hsign⟩ := exists_cons_of_peek hassign.1 (by decide)
    obtain ⟨⟨value, _⟩, hvalue, hsemicolon⟩ := bind_eq_ok hnext
    obtain ⟨others, rfl, hothers⟩ :=
      (expressionsSound stop afterSign hproper.append_right.tail).binary hvalue
    obtain ⟨semicolon, _, rfl, hkind, hlast⟩ := exists_cons_of_expect hsemicolon
    cases hlast
    have hstmt := IsStmt.assign hused (isAssignable_iff_isTarget.mp hassign.2) hsign hothers hkind
    exact .of_closed ⟨used ++ sign :: others ++ [semicolon], by simp, by simpa using hstmt⟩ rfl
  · obtain ⟨semicolon, _, rfl, hkind, hlast⟩ := exists_cons_of_expect hnext
    cases hlast
    have hstmt := IsStmt.expression hused hkind
    exact .of_closed ⟨used ++ [semicolon], by simp, by simpa using hstmt⟩ rfl

theorem reads_returned {word : Token} {stmt : Stmt} (hword : word.toLexeme.kind = .returnWord)
    (heq : Parsed.outcome (returned stop tokens) = .ok (stmt, rest)) :
    ReadsStmt (word :: tokens) stmt rest := by
  rw [outcome_returned] at heq
  by_cases hpeek : peek tokens = .semicolon
  · rw [if_pos hpeek] at heq
    obtain ⟨semicolon, after, rfl, hkind⟩ := exists_cons_of_peek hpeek (by decide)
    cases heq
    exact .of_closed ⟨[word, semicolon], rfl, .returnNone hword hkind⟩ rfl
  · rw [if_neg hpeek] at heq
    obtain ⟨⟨value, _⟩, hvalue, hsemicolon⟩ := bind_eq_ok heq
    obtain ⟨used, rfl, hused⟩ := (expressionsSound stop tokens hproper).binary hvalue
    obtain ⟨semicolon, _, rfl, hkind, hlast⟩ := exists_cons_of_expect hsemicolon
    cases hlast
    have hstmt := IsStmt.returnValue hword hused hkind
    exact .of_closed ⟨word :: used ++ [semicolon], by simp, by simpa using hstmt⟩ rfl

end Parts

/-- The parsers of statements are sound on the given tokens. -/
structure StatementsSound (stop : Span) (tokens : List Token) : Prop where
  statement : ∀ {stmt : Stmt} {rest : List Token},
    Parsed.outcome (statement stop tokens) = .ok (stmt, rest) → ReadsStmt tokens stmt rest
  statements : ∀ {context : String} {stmts : List Stmt} {rest : List Token},
    Parsed.outcome (statements stop context tokens) = .ok (stmts, rest) →
    ∃ used closing, tokens = used ++ closing :: rest ∧ closing.toLexeme.kind = .closeBrace ∧
      IsStmts (used.map Token.toLexeme) stmts

section Step

variable {stop : Span} {tokens rest : List Token}
variable (hproper : AllProper tokens)
variable (hshorter : ∀ shorter, shorter.length < tokens.length → AllProper shorter →
  StatementsSound stop shorter)

include hproper hshorter

section Headed

variable {kind : Kind} {context : String} {word : Token} {after afterCond : List Token}
  {cond : Exp} {body : Stmt}
variable (htokens : tokens = word :: after)
variable (hcond : Parsed.outcome (condition stop context after) = .ok (cond, afterCond))

include htokens hcond

/-- A head and the statement that it governs. -/
theorem reads_headed (hword : word.toLexeme.kind = kind)
    (hbody : Parsed.outcome (statement stop afterCond) = .ok (body, rest)) :
    ∃ head used, tokens = head ++ used ++ rest ∧ IsHead kind (head.map Token.toLexeme) cond ∧
      IsStmt (used.map Token.toLexeme) body ∧
      (body.endsOpen = true → peek rest ≠ .elseWord) := by
  subst htokens
  have hlength := Parsed.length_of_outcome hcond
  obtain ⟨head, hsplit, hhead⟩ := reads_condition hproper.tail hword hcond
  rw [hsplit] at hproper
  obtain ⟨⟨used, rfl, hused⟩, hends⟩ :=
    (hshorter afterCond (by rw [List.length_cons]; omega) hproper.append_right).statement hbody
  exact ⟨head, used, by simpa using hsplit, hhead, hused, hends⟩

theorem reads_whileLoop (hword : word.toLexeme.kind = .whileWord)
    (hbody : Parsed.outcome (statement stop afterCond) = .ok (body, rest)) :
    ReadsStmt tokens (.whileLoop cond body) rest := by
  obtain ⟨head, used, hsplit, hhead, hused, hends⟩ :=
    reads_headed hproper hshorter htokens hcond hword hbody
  have hloop := IsStmt.whileLoop hhead hused
  exact ⟨⟨head ++ used, hsplit, by simpa using hloop⟩, hends⟩

theorem reads_ifThen (hword : word.toLexeme.kind = .ifWord)
    (hyes : Parsed.outcome (statement stop afterCond) = .ok (body, rest))
    (helse : peek rest ≠ .elseWord) : ReadsStmt tokens (.ifThen cond body) rest := by
  obtain ⟨head, used, hsplit, hhead, hused, -⟩ :=
    reads_headed hproper hshorter htokens hcond hword hyes
  have hbranch := IsStmt.ifThen hhead hused
  exact ⟨⟨head ++ used, hsplit, by simpa using hbranch⟩, fun _ => helse⟩

/-- An `else` goes to the nearest `if`: the branch before it is closed. -/
theorem reads_ifElse (hword : word.toLexeme.kind = .ifWord) {afterYes : List Token}
    (hyes : Parsed.outcome (statement stop afterCond) = .ok (body, afterYes))
    (helse : peek afterYes = .elseWord) {no : Stmt}
    (hno : Parsed.outcome (statement stop afterYes.tail) = .ok (no, rest)) :
    ReadsStmt tokens (.ifElse cond body no) rest := by
  obtain ⟨head, used, rfl, hhead, hused, hends⟩ :=
    reads_headed hproper hshorter htokens hcond hword hyes
  -- The parser took the `else`, so the branch before it cannot end open.
  have hclosed : body.endsOpen = false := Bool.eq_false_iff.mpr fun hopen => hends hopen helse
  obtain ⟨joint, afterElse, rfl, hjoint⟩ := exists_cons_of_peek helse (by decide)
  obtain ⟨⟨others, rfl, hothers⟩, hendsNo⟩ :=
    (hshorter afterElse (by simp only [List.length_append, List.length_cons]; omega)
      hproper.append_right.tail).statement hno
  have hbranch := IsStmt.ifElse hhead hused hclosed hjoint hothers
  exact ⟨⟨head ++ used ++ joint :: others, by simp, by simpa using hbranch⟩, hendsNo⟩

end Headed

theorem reads_statement {stmt : Stmt}
    (heq : Parsed.outcome (statement stop tokens) = .ok (stmt, rest)) :
    ReadsStmt tokens stmt rest := by
  rw [outcome_statement] at heq
  split at heq
  · next hpeek =>
    obtain ⟨word, after, rfl, hword⟩ := exists_cons_of_peek hpeek (by decide)
    obtain ⟨semicolon, after, htail, hkind, hlast⟩ := exists_cons_of_expect heq
    rw [List.tail_cons] at htail
    subst htail
    cases hlast
    exact .of_closed ⟨[word, semicolon], rfl, .breakLoop hword hkind⟩ rfl
  · next hpeek =>
    obtain ⟨word, after, rfl, hword⟩ := exists_cons_of_peek hpeek (by decide)
    exact reads_returned hproper.tail hword heq
  · next hpeek =>
    obtain ⟨opening, after, rfl, hopening⟩ := exists_cons_of_peek hpeek (by decide)
    obtain ⟨⟨stmts, _⟩, hstmts, hlast⟩ := bind_eq_ok heq
    obtain ⟨used, closing, htail, hclosing, hused⟩ :=
      (hshorter after (by simp) hproper.tail).statements hstmts
    cases hlast
    subst htail
    have hblock := IsStmt.block hopening hused hclosing
    exact .of_closed ⟨opening :: used ++ [closing], by simp, by simpa using hblock⟩ rfl
  · next hpeek =>
    obtain ⟨word, after, htokens, hword⟩ := exists_cons_of_peek hpeek (by decide)
    obtain ⟨⟨cond, afterCond⟩, hcond, hnext⟩ := bind_eq_ok heq
    obtain ⟨⟨body, _⟩, hbody, hlast⟩ := bind_eq_ok hnext
    cases hlast
    rw [htokens, List.tail_cons] at hcond
    exact reads_whileLoop hproper hshorter htokens hcond hword hbody
  · next hpeek =>
    obtain ⟨word, after, htokens, hword⟩ := exists_cons_of_peek hpeek (by decide)
    obtain ⟨⟨cond, afterCond⟩, hcond, hfromYes⟩ := bind_eq_ok heq
    obtain ⟨⟨yes, afterYes⟩, hyes, hfromElse⟩ := bind_eq_ok hfromYes
    rw [htokens, List.tail_cons] at hcond
    dsimp only at hfromElse
    split at hfromElse
    · next helse =>
      obtain ⟨⟨no, _⟩, hno, hlast⟩ := bind_eq_ok hfromElse
      cases hlast
      exact reads_ifElse hproper hshorter htokens hcond hword hyes helse hno
    · next helse =>
      cases hfromElse
      exact reads_ifThen hproper hshorter htokens hcond hword hyes helse
  · split at heq
    · obtain ⟨⟨dec, _⟩, hdec, hlast⟩ := bind_eq_ok heq
      cases hlast
      obtain ⟨used, rfl, hused⟩ := reads_declaration hdec
      exact .of_closed ⟨used, rfl, .declare hused⟩ rfl
    · exact reads_expressionStatement hproper heq

theorem reads_statements {context : String} {stmts : List Stmt}
    (heq : Parsed.outcome (statements stop context tokens) = .ok (stmts, rest)) :
    ∃ used closing, tokens = used ++ closing :: rest ∧ closing.toLexeme.kind = .closeBrace ∧
      IsStmts (used.map Token.toLexeme) stmts := by
  rw [outcome_statements] at heq
  by_cases hpeek : peek tokens = .closeBrace
  · rw [if_pos hpeek] at heq
    obtain ⟨closing, after, rfl, hclosing⟩ := exists_cons_of_peek hpeek (by decide)
    cases heq
    exact ⟨[], closing, rfl, hclosing, .nil⟩
  · rw [if_neg hpeek] at heq
    split at heq
    · cases heq
    · obtain ⟨⟨stmt, after⟩, hstmt, hnext⟩ := bind_eq_ok heq
      obtain ⟨⟨stmts, _⟩, hstmts, hlast⟩ := bind_eq_ok hnext
      cases hlast
      have hlength := Parsed.length_of_outcome hstmt
      obtain ⟨⟨used, rfl, hused⟩, -⟩ := reads_statement hproper hshorter hstmt
      obtain ⟨others, closing, rfl, hclosing, hothers⟩ :=
        (hshorter after hlength hproper.append_right).statements hstmts
      have hcons := IsStmts.cons hused hothers
      exact ⟨used ++ others, closing, by simp, hclosing, by simpa using hcons⟩

end Step

/-- Whatever is read as a statement is one by the grammar. -/
theorem statementsSound (stop : Span) :
    ∀ tokens : List Token, AllProper tokens → StatementsSound stop tokens := by
  intro tokens
  induction hlength : tokens.length using Nat.strongRecOn generalizing tokens with
  | ind length ih =>
    intro hproper
    have hshorter : ∀ shorter : List Token, shorter.length < tokens.length →
        AllProper shorter → StatementsSound stop shorter := by
      intro shorter hshort
      exact ih shorter.length (hlength ▸ hshort) shorter rfl
    exact
      { statement := reads_statement hproper hshorter
        statements := reads_statements hproper hshorter }

end Parser

end ClassLang
