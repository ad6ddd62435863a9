import ClassLang.Proofs.Locality.Program
import ClassLang.Proofs.Threading

/-!
# Parsers advance

Whatever the tokens are, and wherever a parser is applied to them, it comes to an
end: the parsers recurse at a later place, or at the same one with a tighter level of
arithmetic.  Here is where they end.  A parser that fails does so for a fault of
the tokens and leaves the place as it was.  One that succeeds has read at least
one token and none that is not there, so a loop over constructs ends as well.
-/

namespace ClassLang.Parser

open Indexed

variable {α : Type}
  {read : Span → (tokens : List Token) → Except SourceError (Parsed α tokens)}
  {tokens : Array Token} {place : Nat}

/-- A parser at a place fails there, or reads on to a later place that is at most
the end and is `reached`. -/
def Advances (parse : Array Token → Nat → Except SourceError (α × Nat))
    (tokens : Array Token) (place : Nat) (reached : Nat → Prop) : Prop :=
  (∃ error, parse tokens place = .error error ∧ error.isUnhandled = false ∧
      nextPlace place (parse tokens place) = place) ∨
    ∃ value next, parse tokens place = .ok (value, next) ∧
      nextPlace place (parse tokens place) = next ∧
      place < next ∧ next ≤ tokens.size ∧ reached next

/-- The end of the tokens, or an end token. -/
def IsEnd (tokens : Array Token) (place : Nat) : Prop :=
  place = tokens.size ∨ ∃ token, tokens[place]? = some token ∧ token.kind = .eof

theorem isEnd_of_peek (hplace : place ≤ tokens.size) (hpeek : Indexed.peek tokens place = .eof) :
    IsEnd tokens place := by
  by_cases hlast : place < tokens.size
  · rw [Indexed.peek, dif_pos hlast] at hpeek
    exact .inr ⟨tokens[place], Array.getElem?_eq_getElem hlast, hpeek⟩
  · exact .inl (Nat.le_antisymm hplace (Nat.le_of_not_lt hlast))

/-- A parser that agrees with a local one advances, to a place from which the rest can be
seen. -/
theorem advances_of_agree {parse : (tokens : Array Token) → (place : Nat) →
      Except SourceError (Found α tokens place)} {reached : Nat → Prop}
    (hagree : Agree Found.Matches (parse tokens place)
      (read (endSpan tokens.toList) (tokens.toList.drop place)))
    (hlocal : LocalAt SamePeek (fun stop tokens => Parsed.outcome (read stop tokens))
      (endSpan tokens.toList) (tokens.toList.drop place))
    (hreached : ∀ value next, next ≤ tokens.size →
      Parsed.outcome (read (endSpan tokens.toList) (tokens.toList.drop place)) =
        .ok (value, tokens.toList.drop next) → reached next) :
    Advances (fun tokens place => Found.result (parse tokens place)) tokens place reached := by
  cases hparse : parse tokens place with
  | error error =>
    rw [hparse] at hagree
    cases hread : read (endSpan tokens.toList) (tokens.toList.drop place) with
    | ok parsed =>
      rw [hread] at hagree
      exact hagree.elim
    | error other =>
      rw [hread] at hagree
      cases hagree
      have hresult : Found.result (parse tokens place) = .error error :=
        congrArg Found.result hparse
      exact .inl ⟨error, hresult, hlocal.handled (congrArg Parsed.outcome hread),
        congrArg (nextPlace place) hresult⟩
  | ok found =>
    rw [hparse] at hagree
    cases hread : read (endSpan tokens.toList) (tokens.toList.drop place) with
    | error other =>
      rw [hread] at hagree
      exact hagree.elim
    | ok parsed =>
      rw [hread] at hagree
      obtain ⟨-, hrest⟩ := hagree
      have hresult : Found.result (parse tokens place) = .ok (found.value, found.next) :=
        congrArg Found.result hparse
      obtain ⟨hlater, hinside⟩ := found.within
      refine .inr ⟨found.value, found.next, hresult, congrArg (nextPlace place) hresult, hlater,
        hinside, ?_⟩
      apply hreached parsed.value found.next hinside
      rw [hread, ← hrest]
      rfl

/-! ## The end of a program -/

theorem peek_of_finalStatements {stop : Span} {tokens rest : List Token} {stmts : List Stmt}
    (heq : Continued.outcome (finalStatements stop tokens) = .ok (stmts, rest)) :
    peek rest = .eof := by
  induction hlength : tokens.length using Nat.strongRecOn generalizing tokens stmts with
  | ind length ih =>
    rw [outcome_finalStatements] at heq
    by_cases hend : peek tokens = .eof
    · rw [if_pos hend] at heq
      cases heq
      exact hend
    · rw [if_neg hend] at heq
      obtain ⟨⟨stmt, after⟩, hstmt, hfromOthers⟩ := bind_eq_ok heq
      obtain ⟨⟨others, last⟩, hothers, hlast⟩ := bind_eq_ok hfromOthers
      cases hlast
      have hshort := Parsed.length_of_outcome hstmt
      exact ih after.length (hlength ▸ hshort) hothers rfl

/-- A program is read up to the end. -/
theorem peek_of_program {stop : Span} {tokens rest : List Token} {value : Program}
    (heq : Parsed.outcome (program stop tokens) = .ok (value, rest)) : peek rest = .eof := by
  rw [outcome_program] at heq
  obtain ⟨⟨classes, afterClasses⟩, -, hfromStmts⟩ := bind_eq_ok heq
  by_cases hend : peek afterClasses = .eof
  · simp only [if_pos hend] at hfromStmts
    cases hfromStmts
  · simp only [if_neg hend] at hfromStmts
    obtain ⟨⟨stmt, after⟩, -, hfromOthers⟩ := bind_eq_ok hfromStmts
    obtain ⟨⟨stmts, last⟩, hstmts, hlast⟩ := bind_eq_ok hfromOthers
    cases hlast
    exact peek_of_finalStatements hstmts

/-- Each parser, applied at any place of any tokens, fails where it is or reads
on, and a program reaches to an end. -/
theorem parsers_advance (tokens : Array Token) (place : Nat) :
    Advances programAt tokens place (IsEnd tokens) ∧
      Advances classDefAt tokens place (fun _ => True) ∧
      Advances statementAt tokens place (fun _ => True) ∧
      Advances expressionAt tokens place (fun _ => True) := by
  have hrest := isRest_drop tokens place
  refine ⟨?_, ?_, ?_, ?_⟩
  · apply advances_of_agree (agree_program hrest) local_program
    intro value next hnext houtcome
    apply isEnd_of_peek hnext
    rw [peek_eq (isRest_drop tokens next)]
    exact peek_of_program houtcome
  · exact advances_of_agree (agree_classDef hrest) local_classDef fun _ _ _ _ => trivial
  · exact advances_of_agree (statementsAgree hrest).statement (statementsLocal _ _).statement
      fun _ _ _ _ => trivial
  · exact advances_of_agree (agree_expression hrest) local_expression fun _ _ _ _ => trivial

end ClassLang.Parser
