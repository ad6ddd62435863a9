import ClassLang.Proofs.Advancing
import ClassLang.Proofs.SyntaxErrors

/-!
# What parsing does not depend on

A parser that is applied at a place looks neither at what stands before the
place nor behind the token that follows its construct.  And it does not look at
where tokens stand or how keywords and signs are spelled: tokens that only
differ in this give the same tree, or the same fault at the same token.
-/

namespace ClassLang

namespace Parser

variable {α : Type}
  {read : Span → (tokens : List Token) → Except SourceError (Parsed α tokens)}

/-! ## Places -/

/-- What a parser does at a place is decided by the tokens from there up to the
first one behind its construct.  The end of the tokens is reported at the last one,
so only where there are no tokens is there no end of their own. -/
structure Threads (parse : Array Token → Nat → Except SourceError (α × Nat)) : Prop where
  shift : ∀ (before : Array Token) {tokens : Array Token}, tokens ≠ #[] →
    parse (before ++ tokens) before.size =
      (parse tokens 0).map (Prod.map id (before.size + ·))
  resume : ∀ (before : Array Token) {tokens : Array Token}, tokens ≠ #[] →
    nextPlace before.size (parse (before ++ tokens) before.size) =
      before.size + nextPlace 0 (parse tokens 0)
  ahead : ∀ {tokens others : Array Token} {value : α} {next : Nat},
    parse tokens 0 = .ok (value, next) → (∀ i < next, others[i]? = tokens[i]?) →
    Indexed.peek others next = Indexed.peek tokens next → parse others 0 = .ok (value, next)

/-- The end of the tokens is where the last of them ends. -/
theorem endSpan_append (before : List Token) {tokens : List Token} (hne : tokens ≠ []) :
    endSpan (before ++ tokens) = endSpan tokens := by
  rw [endSpan, endSpan, List.getLast?_append_of_ne_nil before hne]

/-- What stands before a list of tokens moves the places and nothing else. -/
theorem readAt_append (before : List Token) {tokens : List Token} (hne : tokens ≠ []) :
    readAt read (before ++ tokens) before.length =
      (readAt read tokens 0).map (Prod.map id (before.length + ·)) := by
  have hsame : Parsed.outcome
      (read (endSpan (before ++ tokens)) ((before ++ tokens).drop before.length)) =
      Parsed.outcome (read (endSpan tokens) (tokens.drop 0)) := by
    rw [endSpan_append before hne, List.drop_left, List.drop_zero]
  cases houtcome : Parsed.outcome (read (endSpan tokens) (tokens.drop 0)) with
  | error error =>
    rw [readAt_eq_error houtcome, readAt_eq_error (hsame.trans houtcome)]
    rfl
  | ok result =>
    obtain ⟨value, rest⟩ := result
    have hlength := Parsed.length_of_outcome houtcome
    rw [List.drop_zero] at hlength
    have hnext : (before ++ tokens).length - rest.length =
        before.length + (tokens.length - rest.length) := by
      rw [List.length_append, Nat.add_sub_assoc (Nat.le_of_lt hlength)]
    rw [readAt_eq_ok.mpr ⟨rest, houtcome, rfl⟩,
      readAt_eq_ok.mpr ⟨rest, hsame.trans houtcome, hnext⟩]
    rfl

/-- A local parser reads the same from tokens that are the same up to the next place and go
on with a token of the same kind. -/
theorem readAt_of_agrees {tokens others : List Token} {value : α} {next : Nat}
    (hlocal : LocalAt SamePeek (fun stop tokens => Parsed.outcome (read stop tokens))
      (endSpan tokens) tokens)
    (hread : readAt read tokens 0 = .ok (value, next))
    (hagrees : ∀ i < next, others[i]? = tokens[i]?)
    (hpeek : peek (others.drop next) = peek (tokens.drop next)) :
    readAt read others 0 = .ok (value, next) := by
  obtain ⟨rest, houtcome, hnext⟩ := readAt_eq_ok.mp hread
  rw [List.drop_zero] at houtcome
  obtain ⟨used, rfl, -, hsame⟩ := hlocal.success houtcome
  rw [List.length_append, Nat.add_sub_cancel] at hnext
  subst hnext
  obtain ⟨after, rfl⟩ : used <+: others := by
    rw [List.prefix_iff_getElem?]
    intro i hi
    rw [hagrees i hi, List.getElem?_append_left hi, List.getElem?_eq_getElem hi]
  rw [List.drop_left, List.drop_left] at hpeek
  have hothers := hsame (endSpan (used ++ after)) (.refl used) hpeek.symm
  refine readAt_eq_ok.mpr ⟨after, hothers, ?_⟩
  rw [List.length_append, Nat.add_sub_cancel]

/-- Local parsers that read a rest give parsers that thread their places. -/
theorem threads_of_local {parse : Array Token → Nat → Except SourceError (α × Nat)}
    (hparse : ∀ tokens place, parse tokens place = readAt read tokens.toList place)
    (hlocal : ∀ stop tokens, LocalAt SamePeek
      (fun stop tokens => Parsed.outcome (read stop tokens)) stop tokens) : Threads parse := by
  have hshift : ∀ (before : Array Token) {tokens : Array Token}, tokens ≠ #[] →
      parse (before ++ tokens) before.size =
        (parse tokens 0).map (Prod.map id (before.size + ·)) := by
    intro before tokens hne
    have htokens : tokens.toList ≠ [] := by simpa using hne
    rw [hparse, hparse, Array.toList_append, ← Array.length_toList]
    exact readAt_append before.toList htokens
  refine ⟨hshift, ?_, ?_⟩
  · intro before tokens hne
    rw [hshift before hne]
    cases parse tokens 0 with
    | error error => rfl
    | ok result => rfl
  · intro tokens others value next heq hagrees hpeek
    rw [hparse] at heq ⊢
    rw [Indexed.peek_eq (Indexed.isRest_drop others next),
      Indexed.peek_eq (Indexed.isRest_drop tokens next)] at hpeek
    refine readAt_of_agrees (hlocal _ _) heq ?_ hpeek
    intro i hi
    rw [Array.getElem?_toList, Array.getElem?_toList]
    exact hagrees i hi

/-- All parsers thread their places through the tokens: none sees what stands
before its place, or more than the kind of the token behind its construct. -/
theorem parsers_thread_places :
    Threads programAt ∧ Threads classDefAt ∧ Threads statementAt ∧ Threads expressionAt :=
  ⟨threads_of_local programAt_eq fun _ _ => local_program,
    threads_of_local classDefAt_eq fun _ _ => local_classDef,
    threads_of_local statementAt_eq fun stop tokens => (statementsLocal stop tokens).statement,
    threads_of_local expressionAt_eq fun _ _ => local_expression⟩

/-- In `x = a + b;` the sum is read from its own tokens, whatever precedes it. -/
theorem parsers_thread_places_sum :
    let before : Array Token := #[⟨.ident, "x", .nowhere⟩, ⟨.equals, "=", .nowhere⟩]
    let sum : Array Token := #[⟨.ident, "a", .nowhere⟩, ⟨.plus, "+", .nowhere⟩,
      ⟨.ident, "b", .nowhere⟩, ⟨.semicolon, ";", .nowhere⟩]
    expressionAt (before ++ sum) 2 = .ok (.binary (.name "a") .plus (.name "b"), 5) := by
  intro before sum
  have hsum : expressionAt sum 0 = .ok (.binary (.name "a") .plus (.name "b"), 3) := by
    rw [expressionAt_eq]
    refine readAt_eq_ok.mpr ⟨[⟨.semicolon, ";", .nowhere⟩], ?_, rfl⟩
    cbv
  have hne : sum ≠ #[] := by simp [sum]
  obtain ⟨-, -, -, hexpression⟩ := parsers_thread_places
  have hshift := hexpression.shift before hne
  rw [hsum] at hshift
  exact hshift

end Parser

/-! ## Spelling and layout -/

theorem AllAlike.samePeek {left right : List Token} (halike : AllAlike left right) :
    Parser.SamePeek left right := by
  cases halike with
  | nil => rfl
  | cons htoken _ => exact htoken.kind

theorem AllAlike.sameFront {left right : List Token} (halike : AllAlike left right) :
    Parser.SameFront left right := by
  cases halike with
  | nil => exact .refl []
  | cons htoken hothers =>
    have hfront := Parser.SameFront.append_of_ne (.cons htoken hothers) (List.cons_ne_nil _ _)
      (rfl : Parser.SamePeek [] [])
    rwa [List.append_nil, List.append_nil] at hfront

theorem SourceError.moveTo_span (error : SourceError) : error.moveTo error.span = error := by
  cases error <;> rfl

/-- Where the token with the given number stands; behind the tokens it is where
their end is reported. -/
def Token.spanAt (tokens : List Token) (place : Nat) : Span :=
  Parser.peekSpan (Parser.endSpan tokens) (tokens.drop place)

/-- Tokens that are alike write the same program, or they are at fault for the
same reason and at the same token, which may be the end of both. -/
theorem alike_tokens_read_alike {left right : List Token} (halike : AllAlike left right) :
    (∃ program, Program.ofTokens left = .ok program ∧ Program.ofTokens right = .ok program) ∨
      ∃ (error : SourceError) (place : Nat), place ≤ left.length ∧
        Program.ofTokens left = .error (error.moveTo (Token.spanAt left place)) ∧
        Program.ofTokens right = .error (error.moveTo (Token.spanAt right place)) := by
  cases houtcome : Parser.Parsed.outcome (Parser.program (Parser.endSpan left) left) with
  | ok result =>
    obtain ⟨program, rest⟩ := result
    obtain ⟨used, rfl, -, hsame⟩ := Parser.local_program.success houtcome
    obtain ⟨first, last, rfl, hfirst, hlast⟩ := halike.exists_append
    have hright := hsame (Parser.endSpan (first ++ last)) hfirst hlast.samePeek
    exact .inl ⟨program, Program.ofTokens_eq_ok.mpr ⟨rest, houtcome⟩,
      Program.ofTokens_eq_ok.mpr ⟨last, hright⟩⟩
  | error error =>
    obtain ⟨used, rest, rfl, -, hspan, hsame⟩ := Parser.local_program.failure houtcome
    obtain ⟨first, last, rfl, hfirst, hlast⟩ := halike.exists_append
    have hright := hsame (Parser.endSpan (first ++ last)) hfirst hlast.sameFront
    refine .inr ⟨error, used.length, by simp, ?_, ?_⟩
    · rw [Program.ofTokens_eq_error, houtcome, Token.spanAt, List.drop_left, ← hspan,
        SourceError.moveTo_span]
    · rw [Program.ofTokens_eq_error, hright, Token.spanAt, hfirst.length_eq, List.drop_left]

/-- The semicolon behind a returned value is missed at the end of the tokens,
whatever the case of the keyword and wherever the tokens stand. -/
theorem alike_tokens_read_alike_unfinished :
    let quiet : List Token :=
      [⟨.returnWord, "return", ⟨⟨"a", 1, 1⟩, ⟨"a", 1, 6⟩⟩⟩, ⟨.ident, "x", .single ⟨"a", 1, 8⟩⟩]
    let loud : List Token :=
      [⟨.returnWord, "RETURN", ⟨⟨"b", 3, 5⟩, ⟨"b", 3, 10⟩⟩⟩, ⟨.ident, "x", .single ⟨"b", 4, 1⟩⟩]
    AllAlike quiet loud ∧
      Program.ofTokens quiet = .error
        (.unexpectedKind [.semicolon] .eof "return statement" (.single ⟨"a", 1, 8⟩)) ∧
      ∃ place, Program.ofTokens loud = .error
        (.unexpectedKind [.semicolon] .eof "return statement" (Token.spanAt loud place)) := by
  intro quiet loud
  have halike : AllAlike quiet loud :=
    .cons ⟨rfl, by decide⟩ (.cons ⟨rfl, fun _ => rfl⟩ .nil)
  have herror : Program.ofTokens quiet = .error
      (.unexpectedKind [.semicolon] .eof "return statement" (.single ⟨"a", 1, 8⟩)) := by
    rw [Program.ofTokens_eq_error]
    cbv
  refine ⟨halike, herror, ?_⟩
  rcases alike_tokens_read_alike halike with ⟨program, hquiet, -⟩ | ⟨error, place, -, hquiet, hloud⟩
  · rw [herror] at hquiet
    cases hquiet
  · rw [herror] at hquiet
    refine ⟨place, ?_⟩
    cases error with
    | unexpectedKind expected got context span =>
      have hsame : SourceError.unexpectedKind [.semicolon] .eof "return statement" _ =
          .unexpectedKind expected got context _ := Except.error.inj hquiet
      obtain ⟨rfl, rfl, rfl, -⟩ := SourceError.unexpectedKind.inj hsame
      exact hloud
    | _ => cases hquiet

end ClassLang
