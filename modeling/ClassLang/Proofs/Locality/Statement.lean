import ClassLang.Proofs.Locality.Expression

/-!
# What the parsers of statements look at

A statement that starts with a name is a declaration when another name follows,
so its parser sees one token more than the others.
-/

namespace ClassLang.Parser

section Parts

variable {stop : Span} {tokens : List Token}

theorem local_type :
    LocalAt SamePeek (fun stop tokens => Parsed.outcome (type stop tokens)) stop tokens := by
  refine .of_eq outcome_type (.expect (by decide) ?_ ?_)
  · rintro ⟨kind, lexeme, span⟩ ⟨_, otherLexeme, place⟩ other rest _ hkind ⟨rfl, hlexeme⟩
    simp only [List.mem_cons, List.not_mem_nil, or_false] at hkind
    rcases hkind with rfl | rfl | rfl | rfl
    · rfl
    · rfl
    · rfl
    · have hsame : lexeme = otherLexeme := hlexeme List.mem_cons_self
      subst hsame
      rfl
  · rintro ⟨kind, lexeme, span⟩ rest rfl hkind
    simp only [List.mem_cons, List.not_mem_nil, or_false] at hkind
    rcases hkind with rfl | rfl | rfl | rfl
    all_goals exact .pure _

theorem local_typedName (context : String) :
    LocalAt SamePeek (fun stop tokens => Parsed.outcome (typedName stop context tokens))
      stop tokens := by
  refine .of_eq (outcome_typedName · context ·) (.bind id local_type ?_)
  intro ty afterType _
  refine .expect_name ?_ fun _ _ _ => .pure _
  intro token first other rest hlexeme
  simp only [hlexeme]

theorem local_declaration (context : String) :
    LocalAt SamePeek (fun stop tokens => Parsed.outcome (declaration stop context tokens))
      stop tokens := by
  refine .of_eq (outcome_declaration · context ·) (.bind id (local_typedName context) ?_)
  intro dec afterName _
  exact .expect (by decide) (fun _ _ _ _ _ => rfl) fun _ _ _ _ => .pure dec

theorem local_expression :
    LocalAt SamePeek (fun stop tokens => Parsed.outcome (binary stop .sum tokens)) stop tokens :=
  (expressionsLocal stop tokens).binary .sum

theorem local_condition (context : String) :
    LocalAt SamePeek (fun stop tokens => Parsed.outcome (condition stop context tokens))
      stop tokens := by
  refine .of_eq (outcome_condition · context ·) ?_
  refine .expect (by decide) (fun _ _ _ _ _ => rfl) fun opening afterOpen _ _ => ?_
  refine .bind id local_expression fun cond afterCond _ => ?_
  exact .expect (by decide) (fun _ _ _ _ _ => rfl) fun _ _ _ _ => .pure cond

theorem local_expressionStatement :
    LocalAt SamePeek (fun stop tokens => Parsed.outcome (expressionStatement stop tokens))
      stop tokens := by
  refine .of_eq outcome_expressionStatement (.bind id local_expression ?_)
  intro exp after _
  by_cases hassign : peek after = .equals ∧ exp.isAssignable = true
  · apply LocalAt.of_peek id fun _ _ hsame => if_pos ⟨hsame.trans hassign.1, hassign.2⟩
    refine .tail (by rw [hassign.1]; decide) (.bind id local_expression ?_)
    intro value afterValue _
    exact .expect (by decide) (fun _ _ _ _ _ => rfl) fun _ _ _ _ => .pure _
  · apply LocalAt.of_peek id fun _ _ hsame => if_neg (hsame ▸ hassign)
    exact .expect (by decide) (fun _ _ _ _ _ => rfl) fun _ _ _ _ => .pure _

theorem local_returned :
    LocalAt SamePeek (fun stop tokens => Parsed.outcome (returned stop tokens)) stop tokens := by
  refine .of_eq outcome_returned ?_
  by_cases hpeek : peek tokens = .semicolon
  · apply LocalAt.of_peek id fun _ _ hsame => if_pos (hsame.trans hpeek)
    exact .tail (by rw [hpeek]; decide) (.pure Stmt.returnNone)
  · apply LocalAt.of_peek id fun _ _ hsame => if_neg (hsame ▸ hpeek)
    refine .bind id local_expression fun value afterValue _ => ?_
    exact .expect (by decide) (fun _ _ _ _ _ => rfl) fun _ _ _ _ => .pure _

end Parts

/-- The parsers of statements are local on the given tokens. -/
structure StatementsLocal (stop : Span) (tokens : List Token) : Prop where
  statement :
    LocalAt SamePeek (fun stop tokens => Parsed.outcome (statement stop tokens)) stop tokens
  statements : ∀ context : String,
    LocalAt SamePeek (fun stop tokens => Parsed.outcome (statements stop context tokens))
      stop tokens

section Step

variable {stop : Span} {tokens : List Token}
variable (hshorter : ∀ shorter : List Token, shorter.length < tokens.length →
  StatementsLocal stop shorter)

theorem local_statement_plain
    (hpeek : peek tokens ∉ [.breakWord, .returnWord, .openBrace, .whileWord, .ifWord]) :
    LocalAt SamePeek (fun stop tokens => Parsed.outcome (statement stop tokens)) stop tokens := by
  by_cases hstarts : startsDeclaration tokens = true
  · apply LocalAt.of_front Parsed.length_of_outcome
    · intro other after hfront
      rw [outcome_statement_plain (hfront.peek ▸ hpeek), ← hfront.declaration, if_pos hstarts]
    · exact .bind id (local_declaration _) fun _ _ _ => .pure _
  · apply LocalAt.of_front Parsed.length_of_outcome
    · intro other after hfront
      rw [outcome_statement_plain (hfront.peek ▸ hpeek), ← hfront.declaration, if_neg hstarts]
    · exact local_expressionStatement

include hshorter

/-- A statement looks one token beyond its end, for an `else`. -/
theorem local_statement :
    LocalAt SamePeek (fun stop tokens => Parsed.outcome (statement stop tokens)) stop tokens := by
  by_cases hword : peek tokens ∈ [.breakWord, .returnWord, .openBrace, .whileWord, .ifWord]
  · have hend : peek tokens ≠ .eof := by
      intro heof
      rw [heof] at hword
      exact absurd hword (by decide)
    have htail := length_tail_of_peek hend
    simp only [List.mem_cons, List.not_mem_nil, or_false] at hword
    refine .of_eq outcome_statement ?_
    rcases hword with hpeek | hpeek | hpeek | hpeek | hpeek
    all_goals
      apply LocalAt.of_peek id (fun _ _ hsame => by rw [hsame, hpeek])
    · refine .tail hend (.expect (by decide) ?_ ?_)
      · exact fun _ _ _ _ _ => rfl
      · exact fun _ _ _ _ => .pure _
    · exact .tail hend local_returned
    · refine .tail hend (.bind id ((hshorter _ htail).statements _) ?_)
      exact fun _ _ _ => .pure _
    · refine .tail hend (.bind id (local_condition _) fun cond afterCond hcond => ?_)
      have hlength := Parsed.length_of_outcome hcond
      have hbody := hshorter afterCond (Nat.lt_trans hlength htail)
      exact .bind id hbody.statement fun _ _ _ => .pure _
    · refine .tail hend (.bind id (local_condition _) fun cond afterCond hcond => ?_)
      have hlength := Parsed.length_of_outcome hcond
      have hyes := hshorter afterCond (Nat.lt_trans hlength htail)
      refine .bind id hyes.statement fun yes afterYes hyes => ?_
      have hbranch := Parsed.length_of_outcome hyes
      by_cases helse : peek afterYes = .elseWord
      · have hjoint : peek afterYes ≠ .eof := by rw [helse]; decide
        have hrest := length_tail_of_peek hjoint
        apply LocalAt.of_peek id fun _ _ hsame => if_pos (hsame.trans helse)
        refine .tail hjoint (.bind id (hshorter _ (by omega)).statement ?_)
        exact fun _ _ _ => .pure _
      · apply LocalAt.of_peek id fun _ _ hsame => if_neg (hsame ▸ helse)
        exact .pure _
  · exact local_statement_plain hword

theorem local_statements (context : String) :
    LocalAt SamePeek (fun stop tokens => Parsed.outcome (statements stop context tokens))
      stop tokens := by
  refine .of_eq (outcome_statements · context ·) ?_
  by_cases hclosing : peek tokens = .closeBrace
  · apply LocalAt.of_peek id fun _ _ hsame => if_pos (hsame.trans hclosing)
    exact .tail (by rw [hclosing]; decide) (.pure [])
  · apply LocalAt.of_peek id fun _ _ hsame => if_neg (hsame ▸ hclosing)
    by_cases hend : peek tokens = .eof
    · refine .fail rfl rfl ?_ (if_pos hend)
      intro other after hfront
      exact if_pos (hfront.peek.symm.trans hend)
    · apply LocalAt.of_peek id fun _ _ hsame => if_neg (hsame ▸ hend)
      refine .bind id (local_statement hshorter) fun stmt after hstmt => ?_
      have hafter := hshorter after (Parsed.length_of_outcome hstmt)
      exact .bind id (hafter.statements context) fun _ _ _ => .pure _

end Step

/-- Statements are read alike from alike tokens. -/
theorem statementsLocal (stop : Span) : ∀ tokens : List Token, StatementsLocal stop tokens := by
  intro tokens
  induction hlength : tokens.length using Nat.strongRecOn generalizing tokens with
  | ind length ih =>
    have hshorter : ∀ shorter : List Token, shorter.length < tokens.length →
        StatementsLocal stop shorter := by
      intro shorter hshort
      exact ih shorter.length (hlength ▸ hshort) shorter rfl
    exact
      { statement := local_statement hshorter
        statements := local_statements hshorter }

end ClassLang.Parser
