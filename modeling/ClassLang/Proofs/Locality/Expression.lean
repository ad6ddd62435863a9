import ClassLang.Proofs.Locality.Reader

/-!
# What the parsers of expressions look at
-/

namespace ClassLang.Parser

/-- The parsers of expressions are local on the given tokens. -/
structure ExpressionsLocal (stop : Span) (tokens : List Token) : Prop where
  binary : ∀ level : Level,
    LocalAt SamePeek (fun stop tokens => Parsed.outcome (binary stop level tokens)) stop tokens
  operand : ∀ level : Level,
    LocalAt SamePeek (fun stop tokens => Parsed.outcome (operand stop level tokens)) stop tokens
  operators : ∀ (level : Level) (left : Exp),
    LocalAt SamePeek (fun stop tokens => Continued.outcome (operators stop level left tokens))
      stop tokens
  members : ∀ receiver : Exp,
    LocalAt SamePeek (fun stop tokens => Continued.outcome (members stop receiver tokens))
      stop tokens
  arguments : ∀ context : String,
    LocalAt SamePeek (fun stop tokens => Parsed.outcome (arguments stop context tokens)) stop tokens
  argumentList : ∀ context : String,
    LocalAt SamePeek (fun stop tokens => Parsed.outcome (argumentList stop context tokens))
      stop tokens

theorem length_tail_of_peek {tokens : List Token} (hend : peek tokens ≠ .eof) :
    tokens.tail.length < tokens.length := by
  cases tokens with
  | nil => exact absurd rfl hend
  | cons token rest => exact Nat.lt_succ_self rest.length

theorem outcome_primary_int {token : Token} (hkind : token.kind = .int) (stop : Span)
    (rest : List Token) :
    Parsed.outcome (primary stop (token :: rest)) =
      (match Text.readInt64? token.lexeme with
      | some value => .ok (.int value, rest)
      | none => .error (.integerOutOfRange token.lexeme token.span)) := by
  have hmem : token.kind ∈ primaryKinds := hkind ▸ List.mem_cons_self
  rw [outcome_primary, outcome_expect_cons stop _ rest hmem]
  obtain ⟨kind, lexeme, span⟩ := token
  cases hkind
  rfl

/-- A number is read or refused for its text. -/
theorem local_primary_int {stop : Span} {tokens : List Token} (hint : peek tokens = .int) :
    LocalAt SamePeek (fun stop tokens => Parsed.outcome (primary stop tokens)) stop tokens := by
  rcases tokens with _ | ⟨token, rest⟩
  · cases hint
  have hkind : token.kind = .int := hint
  have hlexeme : token.kind ∈ [.ident, .int] := hkind ▸ List.mem_cons_of_mem _ List.mem_cons_self
  cases hvalue : Text.readInt64? token.lexeme with
  | some value =>
    refine .cons (hkind ▸ by decide) ?_ (.pure (.int value))
    intro other first after hfirst
    rw [outcome_primary_int (hfirst.kind.symm.trans hkind), ← hfirst.lexeme hlexeme, hvalue]
  | none =>
    have hfail : Parsed.outcome (primary stop (token :: rest)) =
        .error (.integerOutOfRange token.lexeme token.span) := by
      rw [outcome_primary_int hkind, hvalue]
    refine .fail rfl rfl ?_ hfail
    intro other after hfront
    cases after with
    | nil => cases hint.symm.trans hfront.peek
    | cons first after =>
      have hfirst : first.kind = .int := hfront.peek.symm.trans hint
      have hsame : token.lexeme = first.lexeme := Option.some.inj (hfront.number hint)
      rw [outcome_primary_int hfirst, ← hsame, hvalue]
      rfl

section Step

variable {stop : Span} {tokens : List Token}
variable (hshorter : ∀ shorter : List Token, shorter.length < tokens.length →
  ExpressionsLocal stop shorter)

include hshorter

theorem local_operators (level : Level) (left : Exp) :
    LocalAt SamePeek (fun stop tokens => Continued.outcome (operators stop level left tokens))
      stop tokens := by
  refine .of_eq (outcome_operators · level left ·) ?_
  cases hop : level.op? (peek tokens) with
  | none =>
    refine .of_peek id ?_ (.pure left)
    intro other after hpeek
    rw [hpeek, hop]
  | some op =>
    have hend : peek tokens ≠ .eof := by
      intro heof
      rw [heof] at hop
      cases level <;> cases hop
    have htail := length_tail_of_peek hend
    apply LocalAt.of_peek id
    · intro other after hpeek
      rw [hpeek, hop]
    · refine .tail hend (.bind id ((hshorter _ htail).operand level) ?_)
      intro right afterRight hright
      have hlength := Parsed.length_of_outcome hright
      exact (hshorter afterRight (Nat.lt_trans hlength htail)).operators level _

theorem local_members (receiver : Exp) :
    LocalAt SamePeek (fun stop tokens => Continued.outcome (members stop receiver tokens))
      stop tokens := by
  refine .of_eq (outcome_members · receiver ·) ?_
  by_cases hpeek : peek tokens = .period
  · have hend : peek tokens ≠ .eof := by rw [hpeek]; decide
    have htail := length_tail_of_peek hend
    apply LocalAt.of_peek id (fun _ _ hafter => if_pos (hafter.trans hpeek))
    refine .tail hend (.expect_name ?_ ?_)
    · intro token first other rest hlexeme
      simp only [hlexeme]
    · intro name afterName hname
      have hlength := congrArg List.length hname
      rw [List.length_cons] at hlength
      have hafter := hshorter afterName (by omega)
      by_cases hopening : peek afterName = .openParen
      · apply LocalAt.of_peek id (fun _ _ hsame => if_pos (hsame.trans hopening))
        refine .bind id (hafter.arguments _) ?_
        intro args afterArgs hargs
        have hshort := Parsed.length_of_outcome hargs
        exact (hshorter afterArgs (by omega)).members _
      · apply LocalAt.of_peek id (fun _ _ hsame => if_neg (hsame ▸ hopening))
        exact hafter.members _
  · exact .of_peek id (fun _ _ hsame => if_neg (hsame ▸ hpeek)) (.pure receiver)

theorem local_arguments (context : String) :
    LocalAt SamePeek (fun stop tokens => Parsed.outcome (arguments stop context tokens))
      stop tokens := by
  refine .of_eq (outcome_arguments · context ·) ?_
  refine .expect (by decide) (fun _ _ _ _ _ => rfl) ?_
  rintro opening after rfl -
  by_cases hclosing : peek after = .closeParen
  · apply LocalAt.of_peek id (fun _ _ hsame => if_pos (hsame.trans hclosing))
    exact .tail (by rw [hclosing]; decide) (.pure [])
  · apply LocalAt.of_peek id (fun _ _ hsame => if_neg (hsame ▸ hclosing))
    exact (hshorter after (Nat.lt_succ_self _)).argumentList context

theorem local_primary :
    LocalAt SamePeek (fun stop tokens => Parsed.outcome (primary stop tokens)) stop tokens := by
  by_cases hint : peek tokens = .int
  · exact local_primary_int hint
  · refine .of_eq outcome_primary (.expect (by decide) ?_ ?_)
    · rintro ⟨kind, lexeme, span⟩ ⟨_, otherLexeme, place⟩ other rest hpeek hkind ⟨rfl, hlexeme⟩
      simp only [primaryKinds, List.mem_cons, List.not_mem_nil, or_false] at hkind
      rcases hkind with rfl | rfl | rfl | rfl | rfl | rfl | rfl | rfl
      · exact absurd hpeek hint
      · rfl
      · rfl
      · rfl
      · have hsame : lexeme = otherLexeme := hlexeme List.mem_cons_self
        subst hsame
        rfl
      · rfl
      · rfl
      · rfl
    · rintro ⟨kind, lexeme, span⟩ rest rfl hkind
      have hinner := hshorter rest (Nat.lt_succ_self _)
      simp only [primaryKinds, List.mem_cons, List.not_mem_nil, or_false] at hkind
      rcases hkind with rfl | rfl | rfl | rfl | rfl | rfl | rfl | rfl
      · exact absurd rfl hint
      · exact .pure _
      · exact .pure _
      · exact .pure _
      · exact .pure _
      · refine .expect_name ?_ ?_
        · intro token first other rest hlexeme
          simp only [hlexeme]
        · rintro name _ rfl
          refine .expect (by decide) (fun _ _ _ _ _ => rfl) ?_
          rintro opening _ rfl -
          refine .expect (by decide) (fun _ _ _ _ _ => rfl) ?_
          rintro closing _ rfl -
          exact .pure _
      · refine .bind id (hinner.binary .sum) ?_
        intro inner afterInner _
        refine .expect (by decide) (fun _ _ _ _ _ => rfl) ?_
        rintro closing _ rfl -
        exact .pure _
      · refine .expect (by decide) (fun _ _ _ _ _ => rfl) ?_
        rintro opening afterOpen rfl -
        have hafter := hshorter afterOpen (by simp only [List.length_cons]; omega)
        refine .bind id (hafter.binary .sum) ?_
        intro inner afterInner _
        refine .expect (by decide) (fun _ _ _ _ _ => rfl) ?_
        rintro closing _ rfl -
        exact .pure _

theorem local_chain :
    LocalAt SamePeek (fun stop tokens => Parsed.outcome (chain stop tokens)) stop tokens := by
  refine .of_eq outcome_chain (.bind id (local_primary hshorter) ?_)
  intro receiver after hreceiver
  exact (hshorter after (Parsed.length_of_outcome hreceiver)).members receiver

/-- A level of arithmetic is local when its operands are. -/
theorem local_binary_of_operand {level : Level}
    (hoperand : LocalAt SamePeek
      (fun stop tokens => Parsed.outcome (operand stop level tokens)) stop tokens) :
    LocalAt SamePeek (fun stop tokens => Parsed.outcome (binary stop level tokens))
      stop tokens := by
  refine .of_eq (outcome_binary · level ·) (.bind id hoperand ?_)
  intro left after hleft
  exact (hshorter after (Parsed.length_of_outcome hleft)).operators level left

theorem local_operand (level : Level) :
    LocalAt SamePeek (fun stop tokens => Parsed.outcome (operand stop level tokens))
      stop tokens := by
  have hproduct : LocalAt SamePeek
      (fun stop tokens => Parsed.outcome (operand stop .product tokens)) stop tokens := by
    refine .of_eq ?_ (local_chain hshorter)
    intro stop tokens
    rw [operand_product]
  cases level with
  | product => exact hproduct
  | sum =>
    refine .of_eq ?_ (local_binary_of_operand hshorter hproduct)
    intro stop tokens
    rw [operand_sum]

theorem local_argumentList (context : String) :
    LocalAt SamePeek (fun stop tokens => Parsed.outcome (argumentList stop context tokens))
      stop tokens := by
  refine .of_eq (outcome_argumentList · context ·) ?_
  refine .bind id (local_binary_of_operand hshorter (local_operand hshorter .sum)) ?_
  intro arg after harg
  have hlength := Parsed.length_of_outcome harg
  refine .expect (by decide) ?_ ?_
  · intro token first other rest _ _ hfirst
    dsimp only
    rw [hfirst.kind]
  · rintro mark afterMark rfl -
    by_cases hclosing : mark.kind = .closeParen
    · exact .of_eq (fun _ _ => if_pos hclosing) (.pure [arg])
    · apply LocalAt.of_eq (fun _ _ => if_neg hclosing)
      refine .bind id ((hshorter afterMark ?_).argumentList context) ?_
      · rw [List.length_cons] at hlength
        omega
      · intro args rest _
        exact .pure _

end Step

/-- Expressions are read alike from alike tokens with the same kind after them.  The
induction is on the tokens. -/
theorem expressionsLocal (stop : Span) :
    ∀ tokens : List Token, ExpressionsLocal stop tokens := by
  intro tokens
  induction hlength : tokens.length using Nat.strongRecOn generalizing tokens with
  | ind length ih =>
    have hshorter : ∀ shorter : List Token, shorter.length < tokens.length →
        ExpressionsLocal stop shorter := by
      intro shorter hshort
      exact ih shorter.length (hlength ▸ hshort) shorter rfl
    exact
      { binary := fun level => local_binary_of_operand hshorter (local_operand hshorter level)
        operand := local_operand hshorter
        operators := local_operators hshorter
        members := local_members hshorter
        arguments := local_arguments hshorter
        argumentList := local_argumentList hshorter }

end ClassLang.Parser
