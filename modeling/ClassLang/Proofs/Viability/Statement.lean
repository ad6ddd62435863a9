import ClassLang.Proofs.Soundness.Statement
import ClassLang.Proofs.Viability.Expression

/-!
# What can come next in a statement
-/

namespace ClassLang

open Grammar
open Lexeme (sample kind_sample)

namespace Grammar

theorem isStmt_sample :
    IsStmt [sample .ident, sample .semicolon] (.expression (.name (sample .ident).text)) :=
  .expression isSum_sample (kind_sample _)

/-- Every kind that is expected of a type is one. -/
theorem exists_isType_sample {kind : Kind}
    (hkind : kind ∈ [.intWord, .boolWord, .voidWord, .ident]) : ∃ ty, IsType (sample kind) ty := by
  simp only [List.mem_cons, List.not_mem_nil, or_false] at hkind
  rcases hkind with rfl | rfl | rfl | rfl
  · exact ⟨_, .int (kind_sample _)⟩
  · exact ⟨_, .bool (kind_sample _)⟩
  · exact ⟨_, .void (kind_sample _)⟩
  · exact ⟨_, .named (kind_sample _)⟩

end Grammar

namespace Parser

section Parts

variable {stop : Span} {context : String} {tokens rest : List Token} {error : SourceError}

/-- Where a type is missing, any type can come next. -/
theorem Blocked.of_type {α : Type} {IsItem : List Lexeme → α → Prop}
    (heq : Parsed.outcome (type stop rest) = .error error) (front : List Token)
    (hsplit : tokens = front ++ rest)
    (hcompletes : ∀ {word : Lexeme} {ty : Ty}, IsType word ty →
      Completes IsItem (front.map Token.toLexeme ++ [word])) :
    Blocked stop IsItem tokens error := by
  rw [outcome_type] at heq
  rcases bind_eq_error heq with htoken | ⟨⟨token, after⟩, _, hnext⟩
  · refine .of_expect htoken (by decide) (by decide) front hsplit fun kind hkind => ?_
    obtain ⟨ty, htype⟩ := exists_isType_sample hkind
    exact hcompletes htype
  · dsimp only at hnext
    split at hnext
    all_goals cases hnext

theorem blocked_typedName (heq : Parsed.outcome (typedName stop context tokens) = .error error) :
    Blocked stop IsTypedName tokens error := by
  rw [outcome_typedName] at heq
  rcases bind_eq_error heq with hty | ⟨⟨ty, afterType⟩, hty, hname⟩
  · refine .of_type hty [] rfl fun htype => ?_
    exact .intro (.intro htype (kind_sample _)) [.ident] rfl
  obtain ⟨type, rfl, htype⟩ := reads_type hty
  refine .of_last hname (fun _ => ⟨_, rfl⟩) (by decide) [type] rfl ?_
  exact .intro (.intro htype (kind_sample _)) [] rfl

theorem blocked_declaration
    (heq : Parsed.outcome (declaration stop context tokens) = .error error) :
    Blocked stop IsDeclaration tokens error := by
  rw [outcome_declaration] at heq
  rcases bind_eq_error heq with hname | ⟨⟨dec, afterName⟩, hname, hsemicolon⟩
  · refine (blocked_typedName hname).within [] rfl fun hname => ?_
    exact .intro (.intro hname (kind_sample _)) [.semicolon] (by simp)
  obtain ⟨used, rfl, hused⟩ := reads_typedName hname
  refine .of_last hsemicolon (fun _ => ⟨_, rfl⟩) (by decide) used rfl ?_
  exact .intro (.intro hused (kind_sample _)) [] (by simp)

variable (hproper : AllProper tokens)

include hproper

theorem blocked_condition {kind : Kind} {word : Token} (hword : word.toLexeme.kind = kind)
    (heq : Parsed.outcome (condition stop context tokens) = .error error) :
    Blocked stop (IsHead kind) (word :: tokens) error := by
  rw [outcome_condition] at heq
  rcases cases_of_expect heq with hopen | ⟨opening, afterOpen, rfl, hopening, hcond⟩
  · refine .of_expect_one hopen (by decide) [word] rfl ?_
    exact .intro (.intro hword (kind_sample _) isSum_sample (kind_sample _))
      [.ident, .closeParen] rfl
  rcases bind_eq_error hcond with hcond | ⟨⟨cond, afterCond⟩, hcond, hclose⟩
  · refine ((expressionsBlocked stop afterOpen hproper.tail).binary hcond).within
      [word, opening] rfl fun hcond => ?_
    exact .intro (.intro hword hopening hcond (kind_sample _)) [.closeParen] (by simp)
  obtain ⟨used, rfl, hused⟩ := (expressionsSound stop afterOpen hproper.tail).binary hcond
  refine .of_last hclose (fun _ => ⟨_, rfl⟩) (by decide) (word :: opening :: used) rfl ?_
  exact .intro (.intro hword hopening hused (kind_sample _)) [] (by simp)

theorem blocked_expressionStatement
    (heq : Parsed.outcome (expressionStatement stop tokens) = .error error) :
    Blocked stop IsStmt tokens error := by
  rw [outcome_expressionStatement] at heq
  rcases bind_eq_error heq with hexp | ⟨⟨exp, after⟩, hexp, hnext⟩
  · refine ((expressionsBlocked stop tokens hproper).binary hexp).within [] rfl fun hexp => ?_
    exact .intro (.expression hexp (kind_sample _)) [.semicolon] (by simp)
  obtain ⟨used, rfl, hused⟩ := (expressionsSound stop tokens hproper).binary hexp
  dsimp only at hnext
  split at hnext
  · next hassign =>
    have htarget := isAssignable_iff_isTarget.mp hassign.2
    obtain ⟨sign, afterSign, rfl, hsign⟩ := exists_cons_of_peek hassign.1 (by decide)
    rw [List.tail_cons] at hnext
    have hproperSign := hproper.append_right.tail
    rcases bind_eq_error hnext with hvalue | ⟨⟨value, _⟩, hvalue, hsemicolon⟩
    · refine ((expressionsBlocked stop afterSign hproperSign).binary hvalue).within
        (used ++ [sign]) (by simp) fun hvalue => ?_
      exact .intro (.assign hused htarget hsign hvalue (kind_sample _)) [.semicolon] (by simp)
    obtain ⟨others, rfl, hothers⟩ := (expressionsSound stop afterSign hproperSign).binary hvalue
    refine .of_last hsemicolon (fun _ => ⟨_, rfl⟩) (by decide) (used ++ sign :: others) (by simp) ?_
    exact .intro (.assign hused htarget hsign hothers (kind_sample _)) [] (by simp)
  · refine .of_last hnext (fun _ => ⟨_, rfl⟩) (by decide) used rfl ?_
    exact .intro (.expression hused (kind_sample _)) [] (by simp)

theorem blocked_returned {word : Token} (hword : word.toLexeme.kind = .returnWord)
    (heq : Parsed.outcome (returned stop tokens) = .error error) :
    Blocked stop IsStmt (word :: tokens) error := by
  rw [outcome_returned] at heq
  split at heq
  · cases heq
  · rcases bind_eq_error heq with hvalue | ⟨⟨value, _⟩, hvalue, hsemicolon⟩
    · refine ((expressionsBlocked stop tokens hproper).binary hvalue).within [word] rfl
        fun hvalue => ?_
      exact .intro (.returnValue hword hvalue (kind_sample _)) [.semicolon] (by simp)
    obtain ⟨used, rfl, hused⟩ := (expressionsSound stop tokens hproper).binary hvalue
    refine .of_last hsemicolon (fun _ => ⟨_, rfl⟩) (by decide) (word :: used) rfl ?_
    exact .intro (.returnValue hword hused (kind_sample _)) [] (by simp)

/-- A head that stops is the head of a statement. -/
theorem blocked_head {kind : Kind} {word : Token} {make : Exp → Stmt → Stmt}
    (hmake : ∀ {head lexemes : List Lexeme} {cond : Exp} {body : Stmt},
      IsHead kind head cond → IsStmt lexemes body → IsStmt (head ++ lexemes) (make cond body))
    (hword : word.toLexeme.kind = kind)
    (hcond : Parsed.outcome (condition stop context tokens) = .error error) :
    Blocked stop IsStmt (word :: tokens) error := by
  refine (blocked_condition hproper hword hcond).within [] rfl fun hhead => ?_
  exact .intro (hmake hhead isStmt_sample) [.ident, .semicolon] (by simp)

end Parts

/-- The parsers of statements expect what can come next. -/
structure StatementsBlocked (stop : Span) (tokens : List Token) : Prop where
  statement : ∀ {error : SourceError},
    Parsed.outcome (statement stop tokens) = .error error → Blocked stop IsStmt tokens error
  statements : ∀ {context : String} {error : SourceError},
    Parsed.outcome (statements stop context tokens) = .error error →
    Blocked stop (IsClosed .closeBrace IsStmts) tokens error

section Step

variable {stop : Span} {tokens : List Token} {error : SourceError}
variable (hproper : AllProper tokens)
variable (hshorter : ∀ shorter, shorter.length < tokens.length → AllProper shorter →
  StatementsBlocked stop shorter)

include hproper hshorter

section Headed

variable {kind : Kind} {context : String} {word : Token} {after afterCond : List Token}
  {cond : Exp}
variable (htokens : tokens = word :: after)
variable (hcond : Parsed.outcome (condition stop context after) = .ok (cond, afterCond))

include htokens hcond

/-- The statement behind a head. -/
theorem blocked_headed {make : Exp → Stmt → Stmt}
    (hmake : ∀ {head lexemes : List Lexeme} {cond : Exp} {body : Stmt},
      IsHead kind head cond → IsStmt lexemes body → IsStmt (head ++ lexemes) (make cond body))
    (hword : word.toLexeme.kind = kind)
    (hbody : Parsed.outcome (statement stop afterCond) = .error error) :
    Blocked stop IsStmt tokens error := by
  subst htokens
  have hlength := Parsed.length_of_outcome hcond
  obtain ⟨head, hsplit, hhead⟩ := reads_condition hproper.tail hword hcond
  rw [hsplit] at hproper
  have hafter := hshorter afterCond (Nat.lt_succ_of_lt hlength) hproper.append_right
  refine (hafter.statement hbody).within head hsplit fun hbody => ?_
  exact .intro (hmake hhead hbody) [] (by simp)

/-- The statement behind an `else`. -/
theorem blocked_else (hword : word.toLexeme.kind = .ifWord) {yes : Stmt} {afterYes : List Token}
    (hyes : Parsed.outcome (statement stop afterCond) = .ok (yes, afterYes))
    (helse : peek afterYes = .elseWord)
    (hno : Parsed.outcome (statement stop afterYes.tail) = .error error) :
    Blocked stop IsStmt tokens error := by
  obtain ⟨head, used, rfl, hhead, hused, hends⟩ :=
    reads_headed hproper (fun shorter _ => statementsSound stop shorter) htokens hcond hword hyes
  have hclosed : yes.endsOpen = false := Bool.eq_false_iff.mpr fun hopen => hends hopen helse
  obtain ⟨joint, afterElse, rfl, hjoint⟩ := exists_cons_of_peek helse (by decide)
  have hafter := hshorter afterElse (by simp only [List.length_append, List.length_cons]; omega)
    hproper.append_right.tail
  refine (hafter.statement hno).within (head ++ used ++ [joint]) (by simp) fun hno => ?_
  exact .intro (.ifElse hhead hused hclosed hjoint hno) [] (by simp)

end Headed

theorem blocked_statement (heq : Parsed.outcome (statement stop tokens) = .error error) :
    Blocked stop IsStmt tokens error := by
  rw [outcome_statement] at heq
  split at heq
  · next hpeek =>
    obtain ⟨word, after, rfl, hword⟩ := exists_cons_of_peek hpeek (by decide)
    refine .of_last heq (fun _ => ⟨_, rfl⟩) (by decide) [word] rfl ?_
    exact .intro (.breakLoop hword (kind_sample _)) [] rfl
  · next hpeek =>
    obtain ⟨word, after, rfl, hword⟩ := exists_cons_of_peek hpeek (by decide)
    exact blocked_returned hproper.tail hword heq
  · next hpeek =>
    obtain ⟨opening, after, rfl, hopening⟩ := exists_cons_of_peek hpeek (by decide)
    have hstmts := eq_error_of_bind heq fun _ => ⟨_, rfl⟩
    have hafter := hshorter after (Nat.lt_succ_self _) hproper.tail
    refine (hafter.statements hstmts).within [opening] rfl fun hclosed => ?_
    obtain ⟨hinner, hclosing⟩ := hclosed
    exact .intro (.block hopening hinner hclosing) [] (by simp)
  · next hpeek =>
    obtain ⟨word, after, rfl, hword⟩ := exists_cons_of_peek hpeek (by decide)
    rw [List.tail_cons] at heq
    rcases bind_eq_error heq with hcond | ⟨⟨cond, afterCond⟩, hcond, hnext⟩
    · exact blocked_head hproper.tail .whileLoop hword hcond
    have hbody := eq_error_of_bind hnext fun _ => ⟨_, rfl⟩
    exact blocked_headed hproper hshorter rfl hcond .whileLoop hword hbody
  · next hpeek =>
    obtain ⟨word, after, rfl, hword⟩ := exists_cons_of_peek hpeek (by decide)
    rw [List.tail_cons] at heq
    rcases bind_eq_error heq with hcond | ⟨⟨cond, afterCond⟩, hcond, hfromYes⟩
    · exact blocked_head hproper.tail .ifThen hword hcond
    rcases bind_eq_error hfromYes with hyes | ⟨⟨yes, afterYes⟩, hyes, hfromElse⟩
    · exact blocked_headed hproper hshorter rfl hcond .ifThen hword hyes
    dsimp only at hfromElse
    split at hfromElse
    · next helse =>
      have hno := eq_error_of_bind hfromElse fun _ => ⟨_, rfl⟩
      exact blocked_else hproper hshorter rfl hcond hword hyes helse hno
    · cases hfromElse
  · split at heq
    · have hdec := eq_error_of_bind heq fun _ => ⟨_, rfl⟩
      refine (blocked_declaration hdec).within [] rfl fun hdec => ?_
      exact .intro (.declare hdec) [] (by simp)
    · exact blocked_expressionStatement hproper heq

theorem blocked_statements {context : String}
    (heq : Parsed.outcome (statements stop context tokens) = .error error) :
    Blocked stop (IsClosed .closeBrace IsStmts) tokens error := by
  rw [outcome_statements] at heq
  split at heq
  · cases heq
  split at heq
  · next hend =>
    intro kinds got place span herror
    cases heq
    cases herror
    refine ⟨[], tokens, rfl, rfl, hend.symm, by decide, by decide, fun kind hkind => ?_⟩
    rw [List.mem_singleton.mp hkind]
    exact .intro (.intro .nil (kind_sample _)) [] rfl
  · rcases bind_eq_error heq with hstmt | ⟨⟨stmt, after⟩, hstmt, hnext⟩
    · refine (blocked_statement hproper hshorter hstmt).within [] rfl fun hstmt => ?_
      exact .intro (.intro (.cons hstmt .nil) (kind_sample _)) [.closeBrace] (by simp)
    have hlength := Parsed.length_of_outcome hstmt
    obtain ⟨⟨used, rfl, hused⟩, -⟩ := (statementsSound stop tokens hproper).statement hstmt
    have hstmts := eq_error_of_bind hnext fun _ => ⟨_, rfl⟩
    have hafter := hshorter after hlength hproper.append_right
    refine (hafter.statements hstmts).within used rfl fun hclosed => ?_
    obtain ⟨hothers, hclosing⟩ := hclosed
    exact .intro (.intro (.cons hused hothers) hclosing) [] (by simp)

end Step

/-- Where a statement is blocked, each of the expected kinds goes on with one. -/
theorem statementsBlocked (stop : Span) :
    ∀ tokens : List Token, AllProper tokens → StatementsBlocked stop tokens := by
  intro tokens
  induction hlength : tokens.length using Nat.strongRecOn generalizing tokens with
  | ind length ih =>
    intro hproper
    have hshorter : ∀ shorter : List Token, shorter.length < tokens.length →
        AllProper shorter → StatementsBlocked stop shorter := by
      intro shorter hshort
      exact ih shorter.length (hlength ▸ hshort) shorter rfl
    exact
      { statement := blocked_statement hproper hshorter
        statements := blocked_statements hproper hshorter }

end Parser

end ClassLang
