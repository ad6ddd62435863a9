import ClassLang.Parser.Indexed
import ClassLang.Proofs.Outcome

/-!
# Places and rests

A parser that is applied at a place of an array does the same as its counterpart
that reads from the front of a list, if the list holds the tokens from that place
on.  It builds the same tree and goes on where the rest of the list starts, or it
fails with the same error.  Both are walked through side by side here, one lemma
for each parser, so that all that is known of the one holds of the other.
-/

namespace ClassLang.Parser

namespace Indexed

variable {α β γ δ : Type} {tokens : Array Token} {place : Nat} {rest : List Token}

/-! ## Results side by side -/

/-- Both fail with the same error, or both succeed with related values. -/
def Agree (related : α → β → Prop) : Except SourceError α → Except SourceError β → Prop
  | .ok left, .ok right => related left right
  | .error left, .error right => left = right
  | _, _ => False

/-- The list holds the tokens from a place on. -/
def IsRest (tokens : Array Token) (place : Nat) (rest : List Token) : Prop :=
  rest = tokens.toList.drop place

/-- The same was found at a place as was read from a list. -/
def Found.Matches (found : Found α tokens place) (parsed : Parsed α rest) : Prop :=
  parsed.value = found.value ∧ IsRest tokens found.next parsed.rest

@[inherit_doc Found.Matches]
def Passed.Matches (passed : Passed α tokens place) (continued : Continued α rest) : Prop :=
  continued.value = passed.value ∧ IsRest tokens passed.next continued.rest

/-- Where the first steps agree, the whole agrees if all that follows does. -/
theorem Agree.bind {matched : α → β → Prop} {related : γ → δ → Prop}
    {first : Except SourceError α} {next : α → Except SourceError γ}
    {second : Except SourceError β} {follow : β → Except SourceError δ}
    (hfirst : Agree matched first second)
    (hnext : ∀ left right, matched left right → Agree related (next left) (follow right)) :
    Agree related (first >>= next) (second >>= follow) := by
  cases first with
  | error error =>
    cases second with
    | error other => exact hfirst
    | ok right => exact hfirst.elim
  | ok left =>
    cases second with
    | error other => exact hfirst.elim
    | ok right => exact hnext left right hfirst

/-- After a construct both go on with its tree, at the next place and with the rest. -/
theorem Agree.bind_found {related : γ → δ → Prop}
    {first : Except SourceError (Found α tokens place)}
    {next : Found α tokens place → Except SourceError γ}
    {second : Except SourceError (Parsed α rest)}
    {follow : Parsed α rest → Except SourceError δ} (hfirst : Agree Found.Matches first second)
    (hnext : ∀ value after hafter left hleft, IsRest tokens after left →
      Agree related (next ⟨value, after, hafter⟩) (follow ⟨value, left, hleft⟩)) :
    Agree related (first >>= next) (second >>= follow) := by
  apply hfirst.bind
  rintro ⟨_, after, hafter⟩ ⟨value, left, hleft⟩ ⟨rfl, hrest⟩
  exact hnext value after hafter left hleft hrest

/-- After a loop both forms go on from the same place, also if it found nothing. -/
theorem Agree.bind_passed {related : γ → δ → Prop}
    {first : Except SourceError (Passed α tokens place)}
    {next : Passed α tokens place → Except SourceError γ}
    {second : Except SourceError (Continued α rest)}
    {follow : Continued α rest → Except SourceError δ}
    (hfirst : Agree Passed.Matches first second)
    (hnext : ∀ value after hafter left hleft, IsRest tokens after left →
      Agree related (next ⟨value, after, hafter⟩) (follow ⟨value, left, hleft⟩)) :
    Agree related (first >>= next) (second >>= follow) := by
  apply hfirst.bind
  rintro ⟨_, after, hafter⟩ ⟨value, left, hleft⟩ ⟨rfl, hrest⟩
  exact hnext value after hafter left hleft hrest

theorem agree_found {value : α} {next : Nat} {left : List Token}
    {hnext : place < next ∧ next ≤ tokens.size} {hleft : left.length < rest.length}
    (hrest : IsRest tokens next left) :
    Agree Found.Matches (pure ⟨value, next, hnext⟩ : Except SourceError (Found α tokens place))
      (pure ⟨value, left, hleft⟩ : Except SourceError (Parsed α rest)) :=
  ⟨rfl, hrest⟩

theorem agree_passed {value : α} {next : Nat} {left : List Token}
    {hnext : place ≤ next ∧ next ≤ max place tokens.size} {hleft : left.length ≤ rest.length}
    (hrest : IsRest tokens next left) :
    Agree Passed.Matches (pure ⟨value, next, hnext⟩ : Except SourceError (Passed α tokens place))
      (pure ⟨value, left, hleft⟩ : Except SourceError (Continued α rest)) :=
  ⟨rfl, hrest⟩

theorem agree_throw {related : α → β → Prop} (error : SourceError) :
    Agree related (throw error : Except SourceError α) (throw error : Except SourceError β) :=
  rfl

/-! ## Tokens -/

/-- What stands from a place on is the list without the tokens before it. -/
theorem isRest_drop (tokens : Array Token) (place : Nat) :
    IsRest tokens place (tokens.toList.drop place) :=
  rfl

theorem IsRest.length_eq (hrest : IsRest tokens place rest) :
    rest.length = tokens.size - place := by
  rw [hrest, List.length_drop, Array.length_toList]

theorem IsRest.not_lt_of_nil (hrest : IsRest tokens place []) : ¬place < tokens.size := by
  have hlength := hrest.length_eq
  rw [List.length_nil] at hlength
  omega

/-- The first token of the rest is the one at the place. -/
theorem IsRest.of_cons {token : Token} {after : List Token}
    (hrest : IsRest tokens place (token :: after)) :
    (∃ hplace : place < tokens.size, tokens[place] = token) ∧ IsRest tokens (place + 1) after := by
  have hplace : place < tokens.size := by
    have hlength := hrest.length_eq
    rw [List.length_cons] at hlength
    omega
  have hdrop := List.drop_eq_getElem_cons (i := place) (l := tokens.toList) hplace
  rw [IsRest, hdrop, List.cons.injEq] at hrest
  exact ⟨⟨hplace, hrest.1.symm⟩, hrest.2⟩

/-- Both forms look at the same token, or both at the end. -/
theorem peek_eq (hrest : IsRest tokens place rest) : peek tokens place = Parser.peek rest := by
  unfold peek
  cases rest with
  | nil => rw [dif_neg hrest.not_lt_of_nil, Parser.peek]
  | cons token after =>
    obtain ⟨⟨hplace, rfl⟩, -⟩ := hrest.of_cons
    rw [dif_pos hplace, Parser.peek]

theorem peekSpan_eq (hrest : IsRest tokens place rest) :
    peekSpan tokens place = Parser.peekSpan (endSpan tokens.toList) rest := by
  unfold peekSpan
  cases rest with
  | nil => rw [dif_neg hrest.not_lt_of_nil, Parser.peekSpan]
  | cons token after =>
    obtain ⟨⟨hplace, rfl⟩, -⟩ := hrest.of_cons
    rw [dif_pos hplace, Parser.peekSpan]

/-- A token is accepted at the place and from the rest, or in neither. -/
theorem accept?_cases (hrest : IsRest tokens place rest) (kind : Kind) :
    accept? tokens kind place = none ∧ Parser.accept? kind rest = none ∨
      ∃ token next hnext left hleft, accept? tokens kind place = some ⟨token, next, hnext⟩ ∧
        Parser.accept? kind rest = some ⟨token, left, hleft⟩ ∧ IsRest tokens next left := by
  unfold accept?
  cases rest with
  | nil => exact .inl ⟨dif_neg hrest.not_lt_of_nil, rfl⟩
  | cons token after =>
    obtain ⟨⟨hplace, rfl⟩, hafter⟩ := hrest.of_cons
    rw [dif_pos hplace]
    by_cases hkind : tokens[place].kind = kind
    · refine .inr ⟨_, _, _, after, Nat.lt_succ_self _, if_pos hkind, ?_, hafter⟩
      rw [Parser.accept?, if_pos hkind]
    · refine .inl ⟨if_neg hkind, ?_⟩
      rw [Parser.accept?, if_neg hkind]

/-- Both forms take the same token, or report the same one at the same span. -/
theorem agree_expect (hrest : IsRest tokens place rest) (context : String) (kinds : List Kind) :
    Agree Found.Matches (expect tokens context kinds place)
      (Parser.expect (endSpan tokens.toList) context kinds rest) := by
  unfold expect
  cases rest with
  | nil =>
    rw [dif_neg hrest.not_lt_of_nil]
    exact rfl
  | cons token after =>
    obtain ⟨⟨hplace, rfl⟩, hafter⟩ := hrest.of_cons
    rw [dif_pos hplace, Parser.expect]
    by_cases hkind : tokens[place].kind ∈ kinds
    · rw [if_pos hkind, if_pos hkind]
      exact agree_found hafter
    · rw [if_neg hkind, if_neg hkind]
      exact rfl

/-! ## Expressions -/

/-- The parsers of expressions agree at a place and on a rest. -/
structure ExpressionsAgree (tokens : Array Token) (place : Nat) (rest : List Token) :
    Prop where
  binary : ∀ level, Agree Found.Matches (binary tokens level place)
    (Parser.binary (endSpan tokens.toList) level rest)
  operand : ∀ level, Agree Found.Matches (operand tokens level place)
    (Parser.operand (endSpan tokens.toList) level rest)
  operators : ∀ level left, Agree Passed.Matches (operators tokens level left place)
    (Parser.operators (endSpan tokens.toList) level left rest)
  members : ∀ receiver, Agree Passed.Matches (members tokens receiver place)
    (Parser.members (endSpan tokens.toList) receiver rest)
  arguments : ∀ context, Agree Found.Matches (arguments tokens context place)
    (Parser.arguments (endSpan tokens.toList) context rest)
  argumentList : ∀ context, Agree Found.Matches (argumentList tokens context place)
    (Parser.argumentList (endSpan tokens.toList) context rest)

section Expressions

variable (hshorter : ∀ {next : Nat} {left : List Token}, left.length < rest.length →
    IsRest tokens next left → ExpressionsAgree tokens next left)
  (hrest : IsRest tokens place rest)

include hshorter

theorem agree_binary_of_operand {level : Level}
    (hoperand : Agree Found.Matches (operand tokens level place)
      (Parser.operand (endSpan tokens.toList) level rest)) :
    Agree Found.Matches (binary tokens level place)
      (Parser.binary (endSpan tokens.toList) level rest) := by
  rw [binary, Parser.binary]
  refine hoperand.bind_found ?_
  intro left _ _ _ hleft hafter
  refine ((hshorter hleft hafter).operators level left).bind_passed ?_
  intro exp _ _ _ _ hexp
  exact agree_found hexp

include hrest

/-- The parser of primary expressions goes back to expressions only behind its first
token, where both forms agree already. -/
theorem agree_primary : Agree Found.Matches (primary tokens place)
    (Parser.primary (endSpan tokens.toList) rest) := by
  rw [primary, Parser.primary]
  refine (agree_expect hrest _ _).bind_found ?_
  intro token after _ left hleft hafter
  obtain ⟨kind, lexeme, span⟩ := token
  cases kind with
  | int =>
    dsimp only
    cases Text.readInt64? lexeme with
    | none => exact agree_throw _
    | some value => exact agree_found hafter
  | trueWord => exact agree_found hafter
  | falseWord => exact agree_found hafter
  | thisWord => exact agree_found hafter
  | ident => exact agree_found hafter
  | newWord =>
    refine (agree_expect hafter _ _).bind_found ?_
    intro name _ _ _ _ hname
    refine (agree_expect hname _ _).bind_found ?_
    intro _ _ _ _ _ hopen
    refine (agree_expect hopen _ _).bind_found ?_
    intro _ _ _ _ _ hclose
    exact agree_found hclose
  | openParen =>
    refine ((hshorter hleft hafter).binary .sum).bind_found ?_
    intro inner _ _ _ _ hinner
    refine (agree_expect hinner _ _).bind_found ?_
    intro _ _ _ _ _ hclose
    exact agree_found hclose
  | printlnWord =>
    refine (agree_expect hafter _ _).bind_found ?_
    intro _ _ _ _ hopenShorter hopen
    refine ((hshorter (shorter_trans hopenShorter hleft) hopen).binary .sum).bind_found ?_
    intro inner _ _ _ _ hinner
    refine (agree_expect hinner _ _).bind_found ?_
    intro _ _ _ _ _ hclose
    exact agree_found hclose
  | _ => exact agree_throw _

theorem agree_members (receiver : Exp) : Agree Passed.Matches (members tokens receiver place)
    (Parser.members (endSpan tokens.toList) receiver rest) := by
  rw [members, Parser.members]
  rcases accept?_cases hrest .period with
    ⟨hnone, hnoneRest⟩ | ⟨_, afterPeriod, _, left, hleft, hsome, hsomeRest, hafter⟩
  · rw [hnone, hnoneRest]
    exact agree_passed hrest
  · rw [hsome, hsomeRest]
    refine (agree_expect hafter _ _).bind_found ?_
    intro name afterName _ leftName hleftName hname
    have hshort := shorter_trans hleftName hleft
    dsimp only
    rw [peek_eq hname]
    split
    · refine ((hshorter hshort hname).arguments _).bind_found ?_
      intro args _ _ _ hleftArgs hargs
      refine ((hshorter (shorter_trans hleftArgs hshort) hargs).members _).bind_passed ?_
      intro exp _ _ _ _ hexp
      exact agree_passed hexp
    · refine ((hshorter hshort hname).members _).bind_passed ?_
      intro exp _ _ _ _ hexp
      exact agree_passed hexp

theorem agree_chain : Agree Found.Matches (chain tokens place)
    (Parser.chain (endSpan tokens.toList) rest) := by
  rw [chain, Parser.chain]
  refine (agree_primary hshorter hrest).bind_found ?_
  intro receiver _ _ _ hleft hafter
  refine ((hshorter hleft hafter).members _).bind_passed ?_
  intro exp _ _ _ _ hexp
  exact agree_found hexp

/-- Each operator and its operand are passed by both forms, and the loops go on behind
them. -/
theorem agree_operators (level : Level) (left : Exp) :
    Agree Passed.Matches (operators tokens level left place)
      (Parser.operators (endSpan tokens.toList) level left rest) := by
  rw [operators]
  cases rest with
  | nil =>
    rw [dif_neg hrest.not_lt_of_nil, Parser.operators]
    exact agree_passed hrest
  | cons token after =>
    obtain ⟨⟨hplace, rfl⟩, hafter⟩ := hrest.of_cons
    rw [dif_pos hplace, Parser.operators]
    cases level.op? tokens[place].kind with
    | none => exact agree_passed hrest
    | some op =>
      have hshort : after.length < (tokens[place] :: after).length := Nat.lt_succ_self _
      refine ((hshorter hshort hafter).operand level).bind_found ?_
      intro right _ _ _ hleft hright
      refine ((hshorter (shorter_trans hleft hshort) hright).operators level _).bind_passed ?_
      intro exp _ _ _ _ hexp
      exact agree_passed hexp

theorem agree_operand (level : Level) : Agree Found.Matches (operand tokens level place)
    (Parser.operand (endSpan tokens.toList) level rest) := by
  have hproduct : Agree Found.Matches (operand tokens .product place)
      (Parser.operand (endSpan tokens.toList) .product rest) := by
    rw [operand, Parser.operand]
    exact agree_chain hshorter hrest
  cases level with
  | product => exact hproduct
  | sum =>
    rw [operand, Parser.operand]
    exact agree_binary_of_operand hshorter hproduct

theorem agree_argumentList (context : String) :
    Agree Found.Matches (argumentList tokens context place)
      (Parser.argumentList (endSpan tokens.toList) context rest) := by
  rw [argumentList, Parser.argumentList]
  refine (agree_binary_of_operand hshorter
    (agree_operand hshorter hrest .sum)).bind_found ?_
  intro arg _ _ _ hleft hafter
  refine (agree_expect hafter _ _).bind_found ?_
  intro mark _ _ _ hleftMark hmark
  dsimp only
  split
  · exact agree_found hmark
  · refine ((hshorter (shorter_trans hleftMark hleft) hmark).argumentList context).bind_found ?_
    intro args _ _ _ _ hargs
    exact agree_found hargs

theorem agree_arguments (context : String) :
    Agree Found.Matches (arguments tokens context place)
      (Parser.arguments (endSpan tokens.toList) context rest) := by
  rw [arguments, Parser.arguments]
  refine (agree_expect hrest _ _).bind_found ?_
  intro _ after _ left hleft hafter
  dsimp only
  rcases accept?_cases hafter .closeParen with
    ⟨hnone, hnoneRest⟩ | ⟨_, _, _, _, _, hsome, hsomeRest, hclose⟩
  · rw [hnone, hnoneRest]
    refine ((hshorter hleft hafter).argumentList context).bind_found ?_
    intro args _ _ _ _ hargs
    exact agree_found hargs
  · rw [hsome, hsomeRest]
    exact agree_found hclose

end Expressions

/-- Both forms agree on all of the expression parsers.  The induction is on what is left
of the tokens, and every recursion is behind at least one of them. -/
theorem expressionsAgree (hrest : IsRest tokens place rest) :
    ExpressionsAgree tokens place rest := by
  induction hlength : rest.length using Nat.strongRecOn generalizing place rest with
  | ind length ih =>
    have hshorter : ∀ {next : Nat} {left : List Token}, left.length < rest.length →
        IsRest tokens next left → ExpressionsAgree tokens next left := by
      intro next left hleft hnext
      exact ih left.length (hlength ▸ hleft) hnext rfl
    have hoperand := agree_operand hshorter hrest
    exact
      { binary := fun level => agree_binary_of_operand hshorter (hoperand level)
        operand := hoperand
        operators := agree_operators hshorter hrest
        members := agree_members hshorter hrest
        arguments := agree_arguments hshorter hrest
        argumentList := agree_argumentList hshorter hrest }

theorem agree_expression (hrest : IsRest tokens place rest) :
    Agree Found.Matches (expression tokens place)
      (Parser.expression (endSpan tokens.toList) rest) :=
  (expressionsAgree hrest).binary .sum

/-! ## Statements -/

theorem agree_type (hrest : IsRest tokens place rest) :
    Agree Found.Matches (type tokens place) (Parser.type (endSpan tokens.toList) rest) := by
  refine (agree_expect hrest _ _).bind_found ?_
  intro token _ _ _ _ hafter
  obtain ⟨kind, lexeme, span⟩ := token
  cases kind with
  | intWord => exact agree_found hafter
  | boolWord => exact agree_found hafter
  | voidWord => exact agree_found hafter
  | ident => exact agree_found hafter
  | _ => exact agree_throw _

theorem agree_typedName (hrest : IsRest tokens place rest) (context : String) :
    Agree Found.Matches (typedName tokens context place)
      (Parser.typedName (endSpan tokens.toList) context rest) := by
  refine (agree_type hrest).bind_found ?_
  intro _ _ _ _ _ htype
  refine (agree_expect htype _ _).bind_found ?_
  intro _ _ _ _ _ hname
  exact agree_found hname

theorem agree_declaration (hrest : IsRest tokens place rest) (context : String) :
    Agree Found.Matches (declaration tokens context place)
      (Parser.declaration (endSpan tokens.toList) context rest) := by
  refine (agree_typedName hrest context).bind_found ?_
  intro _ _ _ _ _ hname
  refine (agree_expect hname _ _).bind_found ?_
  intro _ _ _ _ _ hend
  exact agree_found hend

/-- Both forms look two tokens ahead. -/
theorem startsDeclaration_eq (hrest : IsRest tokens place rest) :
    startsDeclaration tokens place = Parser.startsDeclaration rest := by
  rw [startsDeclaration, peek_eq hrest]
  cases rest with
  | nil => rfl
  | cons token after =>
    obtain ⟨-, hafter⟩ := hrest.of_cons
    rw [peek_eq hafter]
    rfl

theorem agree_condition (hrest : IsRest tokens place rest) (context : String) :
    Agree Found.Matches (condition tokens context place)
      (Parser.condition (endSpan tokens.toList) context rest) := by
  refine (agree_expect hrest _ _).bind_found ?_
  intro _ _ _ _ _ hopen
  refine (agree_expression hopen).bind_found ?_
  intro _ _ _ _ _ hcond
  refine (agree_expect hcond _ _).bind_found ?_
  intro _ _ _ _ _ hclose
  exact agree_found hclose

theorem agree_expressionStatement (hrest : IsRest tokens place rest) :
    Agree Found.Matches (expressionStatement tokens place)
      (Parser.expressionStatement (endSpan tokens.toList) rest) := by
  refine (agree_expression hrest).bind_found ?_
  intro exp after hlater left hleft hafter
  dsimp only
  rcases accept?_cases hafter .equals with
    ⟨hnone, hnoneRest⟩ | ⟨_, _, _, _, _, hsome, hsomeRest, hsign⟩
  · rw [hnone, hnoneRest]
    refine (agree_expect hafter _ _).bind_found ?_
    intro _ _ _ _ _ hend
    exact agree_found hend
  · rw [hsome, hsomeRest]
    cases exp.isAssignable with
    | false =>
      refine (agree_expect hafter _ _).bind_found ?_
      intro _ _ _ _ _ hend
      exact agree_found hend
    | true =>
      refine (agree_expression hsign).bind_found ?_
      intro _ _ _ _ _ hvalue
      refine (agree_expect hvalue _ _).bind_found ?_
      intro _ _ _ _ _ hend
      exact agree_found hend

theorem agree_returned (hrest : IsRest tokens place rest) :
    Agree Found.Matches (returned tokens place)
      (Parser.returned (endSpan tokens.toList) rest) := by
  rw [returned, Parser.returned]
  rcases accept?_cases hrest .semicolon with
    ⟨hnone, hnoneRest⟩ | ⟨_, _, _, _, _, hsome, hsomeRest, hend⟩
  · rw [hnone, hnoneRest]
    refine (agree_expression hrest).bind_found ?_
    intro _ _ _ _ _ hvalue
    refine (agree_expect hvalue _ _).bind_found ?_
    intro _ _ _ _ _ hend
    exact agree_found hend
  · rw [hsome, hsomeRest]
    exact agree_found hend

/-- The parsers of statements agree at a place and on a rest. -/
structure StatementsAgree (tokens : Array Token) (place : Nat) (rest : List Token) :
    Prop where
  statement : Agree Found.Matches (statement tokens place)
    (Parser.statement (endSpan tokens.toList) rest)
  statements : ∀ context, Agree Found.Matches (statements tokens context place)
    (Parser.statements (endSpan tokens.toList) context rest)

section Statements

variable (hshorter : ∀ {next : Nat} {left : List Token}, left.length < rest.length →
    IsRest tokens next left → StatementsAgree tokens next left)
  (hrest : IsRest tokens place rest)

include hshorter hrest

/-- The kind of the first token says in both forms which statement it is. -/
theorem agree_statement : Agree Found.Matches (statement tokens place)
    (Parser.statement (endSpan tokens.toList) rest) := by
  rw [statement]
  cases rest with
  | nil =>
    rw [dif_neg hrest.not_lt_of_nil, Parser.statement]
    exact agree_expressionStatement hrest
  | cons token after =>
    have hstarts := startsDeclaration_eq hrest
    have hshort : after.length < (token :: after).length := Nat.lt_succ_self _
    obtain ⟨⟨hplace, rfl⟩, hafter⟩ := hrest.of_cons
    rw [dif_pos hplace, Parser.statement]
    cases tokens[place].kind with
    | breakWord =>
      refine (agree_expect hafter _ _).bind_found ?_
      intro _ _ _ _ _ hend
      exact agree_found hend
    | returnWord =>
      refine (agree_returned hafter).bind_found ?_
      intro _ _ _ _ _ hend
      exact agree_found hend
    | openBrace =>
      refine ((hshorter hshort hafter).statements _).bind_found ?_
      intro _ _ _ _ _ hend
      exact agree_found hend
    | whileWord =>
      refine (agree_condition hafter _).bind_found ?_
      intro _ _ _ _ hleft hcond
      refine (hshorter (shorter_trans hleft hshort) hcond).statement.bind_found ?_
      intro _ _ _ _ _ hbody
      exact agree_found hbody
    | ifWord =>
      refine (agree_condition hafter _).bind_found ?_
      intro _ _ _ _ hleft hcond
      have hleft := shorter_trans hleft hshort
      refine (hshorter hleft hcond).statement.bind_found ?_
      intro _ _ _ _ hleftYes hyes
      dsimp only
      rcases accept?_cases hyes .elseWord with
        ⟨hnone, hnoneRest⟩ | ⟨_, _, _, _, hleftElse, hsome, hsomeRest, helse⟩
      · rw [hnone, hnoneRest]
        exact agree_found hyes
      · rw [hsome, hsomeRest]
        have hleft := shorter_trans hleftElse (shorter_trans hleftYes hleft)
        refine (hshorter hleft helse).statement.bind_found ?_
        intro _ _ _ _ _ hno
        exact agree_found hno
    | _ =>
      dsimp only
      rw [hstarts]
      split
      · refine (agree_declaration hrest _).bind_found ?_
        intro _ _ _ _ _ hend
        exact agree_found hend
      · exact agree_expressionStatement hrest

theorem agree_statements (context : String) :
    Agree Found.Matches (statements tokens context place)
      (Parser.statements (endSpan tokens.toList) context rest) := by
  rw [statements, Parser.statements]
  rcases accept?_cases hrest .closeBrace with
    ⟨hnone, hnoneRest⟩ | ⟨_, _, _, _, _, hsome, hsomeRest, hclose⟩
  · rw [hnone, hnoneRest]
    dsimp only
    rw [peek_eq hrest, peekSpan_eq hrest]
    split
    · exact agree_throw _
    · refine (agree_statement hshorter hrest).bind_found ?_
      intro _ _ _ _ hleft hstmt
      refine ((hshorter hleft hstmt).statements context).bind_found ?_
      intro _ _ _ _ _ hstmts
      exact agree_found hstmts
  · rw [hsome, hsomeRest]
    exact agree_found hclose

end Statements

/-- Both forms agree on statements, by induction on what is left of the tokens. -/
theorem statementsAgree (hrest : IsRest tokens place rest) :
    StatementsAgree tokens place rest := by
  induction hlength : rest.length using Nat.strongRecOn generalizing place rest with
  | ind length ih =>
    have hshorter : ∀ {next : Nat} {left : List Token}, left.length < rest.length →
        IsRest tokens next left → StatementsAgree tokens next left := by
      intro next left hleft hnext
      exact ih left.length (hlength ▸ hleft) hnext rfl
    exact ⟨agree_statement hshorter hrest, agree_statements hshorter hrest⟩

theorem agree_block (hrest : IsRest tokens place rest) :
    Agree Found.Matches (block tokens place) (Parser.block (endSpan tokens.toList) rest) := by
  refine (agree_expect hrest _ _).bind_found ?_
  intro _ _ _ _ _ hopen
  refine ((statementsAgree hopen).statements _).bind_found ?_
  intro _ _ _ _ _ hstmts
  exact agree_found hstmts

/-! ## Classes and programs -/

theorem agree_parameterList (hrest : IsRest tokens place rest) (context : String) :
    Agree Found.Matches (parameterList tokens context place)
      (Parser.parameterList (endSpan tokens.toList) context rest) := by
  induction hlength : rest.length using Nat.strongRecOn generalizing place rest with
  | ind length ih =>
    rw [parameterList, Parser.parameterList]
    refine (agree_typedName hrest context).bind_found ?_
    intro _ _ _ _ hleft hparam
    refine (agree_expect hparam _ _).bind_found ?_
    intro mark _ _ _ hleftMark hmark
    dsimp only
    split
    · exact agree_found hmark
    · refine (ih _ (hlength ▸ shorter_trans hleftMark hleft) hmark rfl).bind_found ?_
      intro _ _ _ _ _ hparams
      exact agree_found hparams

theorem agree_parameters (hrest : IsRest tokens place rest) (context : String) :
    Agree Found.Matches (parameters tokens context place)
      (Parser.parameters (endSpan tokens.toList) context rest) := by
  refine (agree_expect hrest _ _).bind_found ?_
  intro _ _ _ _ _ hopen
  dsimp only
  rcases accept?_cases hopen .closeParen with
    ⟨hnone, hnoneRest⟩ | ⟨_, _, _, _, _, hsome, hsomeRest, hclose⟩
  · rw [hnone, hnoneRest]
    refine (agree_parameterList hopen context).bind_found ?_
    intro _ _ _ _ _ hparams
    exact agree_found hparams
  · rw [hsome, hsomeRest]
    exact agree_found hclose

/-- A call of the base is refused in the same classes and at the same span. -/
theorem agree_superCall (hrest : IsRest tokens place rest) (className : String)
    (base : Option String) :
    Agree Passed.Matches (superCall tokens className base place)
      (Parser.superCall (endSpan tokens.toList) className base rest) := by
  rw [superCall, Parser.superCall]
  rcases accept?_cases hrest .superWord with
    ⟨hnone, hnoneRest⟩ | ⟨_, _, _, _, _, hsome, hsomeRest, hword⟩
  · rw [hnone, hnoneRest]
    exact agree_passed hrest
  · rw [hsome, hsomeRest]
    cases base with
    | none => exact agree_throw _
    | some base =>
      refine ((expressionsAgree hword).arguments _).bind_found ?_
      intro _ _ _ _ _ hargs
      refine (agree_expect hargs _ _).bind_found ?_
      intro _ _ _ _ _ hend
      exact agree_passed hend

theorem agree_constructor (hrest : IsRest tokens place rest) (className : String)
    (base : Option String) :
    Agree Found.Matches (constructor tokens className base place)
      (Parser.constructor (endSpan tokens.toList) className base rest) := by
  refine (agree_expect hrest _ _).bind_found ?_
  intro _ _ _ _ _ hinit
  refine (agree_parameters hinit _).bind_found ?_
  intro _ _ _ _ _ hparams
  refine (agree_expect hparams _ _).bind_found ?_
  intro _ _ _ _ _ hopen
  refine (agree_superCall hopen className base).bind_passed ?_
  intro _ _ _ _ _ hcall
  refine ((statementsAgree hcall).statements _).bind_found ?_
  intro _ _ _ _ _ hbody
  exact agree_found hbody

theorem agree_method (hrest : IsRest tokens place rest) :
    Agree Found.Matches (method tokens place) (Parser.method (endSpan tokens.toList) rest) := by
  refine (agree_expect hrest _ _).bind_found ?_
  intro _ _ _ _ _ hword
  refine (agree_expect hword _ _).bind_found ?_
  intro _ _ _ _ _ hname
  refine (agree_parameters hname _).bind_found ?_
  intro _ _ _ _ _ hparams
  refine (agree_type hparams).bind_found ?_
  intro _ _ _ _ _ htype
  refine (agree_block htype).bind_found ?_
  intro _ _ _ _ _ hbody
  exact agree_found hbody

theorem agree_fields (hrest : IsRest tokens place rest) :
    Agree Passed.Matches (fields tokens place) (Parser.fields (endSpan tokens.toList) rest) := by
  induction hlength : rest.length using Nat.strongRecOn generalizing place rest with
  | ind length ih =>
    rw [fields, Parser.fields, startsDeclaration_eq hrest]
    split
    · refine (agree_declaration hrest _).bind_found ?_
      intro _ _ _ _ hleft hdec
      refine (ih _ (hlength ▸ hleft) hdec rfl).bind_passed ?_
      intro _ _ _ _ _ hdecs
      exact agree_passed hdecs
    · exact agree_passed hrest

theorem agree_methods (hrest : IsRest tokens place rest) :
    Agree Passed.Matches (methods tokens place)
      (Parser.methods (endSpan tokens.toList) rest) := by
  induction hlength : rest.length using Nat.strongRecOn generalizing place rest with
  | ind length ih =>
    rw [methods, Parser.methods, peek_eq hrest]
    split
    · refine (agree_method hrest).bind_found ?_
      intro _ _ _ _ hleft hfirst
      refine (ih _ (hlength ▸ hleft) hfirst rfl).bind_passed ?_
      intro _ _ _ _ _ hothers
      exact agree_passed hothers
    · exact agree_passed hrest

theorem agree_extendsClause (hrest : IsRest tokens place rest) :
    Agree Passed.Matches (extendsClause tokens place)
      (Parser.extendsClause (endSpan tokens.toList) rest) := by
  rw [extendsClause, Parser.extendsClause]
  rcases accept?_cases hrest .extendsWord with
    ⟨hnone, hnoneRest⟩ | ⟨_, _, _, _, _, hsome, hsomeRest, hword⟩
  · rw [hnone, hnoneRest]
    exact agree_passed hrest
  · rw [hsome, hsomeRest]
    refine (agree_expect hword _ _).bind_found ?_
    intro _ _ _ _ _ hbase
    exact agree_passed hbase

/-- The parts of a class are read one after the other from where the last one ended. -/
theorem agree_classDef (hrest : IsRest tokens place rest) :
    Agree Found.Matches (classDef tokens place)
      (Parser.classDef (endSpan tokens.toList) rest) := by
  refine (agree_expect hrest _ _).bind_found ?_
  intro _ _ _ _ _ hword
  refine (agree_expect hword _ _).bind_found ?_
  intro _ _ _ _ _ hname
  refine (agree_extendsClause hname).bind_passed ?_
  intro _ _ _ _ _ hbase
  refine (agree_expect hbase _ _).bind_found ?_
  intro _ _ _ _ _ hopen
  refine (agree_fields hopen).bind_passed ?_
  intro _ _ _ _ _ hfields
  refine (agree_constructor hfields _ _).bind_found ?_
  intro _ _ _ _ _ hinit
  refine (agree_methods hinit).bind_passed ?_
  intro _ _ _ _ _ hmethods
  refine (agree_expect hmethods _ _).bind_found ?_
  intro _ _ _ _ _ hclose
  exact agree_found hclose

theorem agree_classes (hrest : IsRest tokens place rest) :
    Agree Passed.Matches (classes tokens place)
      (Parser.classes (endSpan tokens.toList) rest) := by
  induction hlength : rest.length using Nat.strongRecOn generalizing place rest with
  | ind length ih =>
    rw [classes, Parser.classes, peek_eq hrest]
    split
    · refine (agree_classDef hrest).bind_found ?_
      intro _ _ _ _ hleft hfirst
      refine (ih _ (hlength ▸ hleft) hfirst rfl).bind_passed ?_
      intro _ _ _ _ _ hothers
      exact agree_passed hothers
    · exact agree_passed hrest

theorem agree_finalStatements (hrest : IsRest tokens place rest) :
    Agree Passed.Matches (finalStatements tokens place)
      (Parser.finalStatements (endSpan tokens.toList) rest) := by
  induction hlength : rest.length using Nat.strongRecOn generalizing place rest with
  | ind length ih =>
    rw [finalStatements, Parser.finalStatements, peek_eq hrest]
    split
    · exact agree_passed hrest
    · refine (statementsAgree hrest).statement.bind_found ?_
      intro _ _ _ _ hleft hstmt
      refine (ih _ (hlength ▸ hleft) hstmt rfl).bind_passed ?_
      intro _ _ _ _ _ hstmts
      exact agree_passed hstmts

/-- On what is left from a place, both forms read the same program up to the same place or
report the same error. -/
theorem agree_program (hrest : IsRest tokens place rest) :
    Agree Found.Matches (program tokens place)
      (Parser.program (endSpan tokens.toList) rest) := by
  refine (agree_classes hrest).bind_passed ?_
  intro _ _ _ _ _ hclasses
  dsimp only
  rw [peek_eq hclasses, peekSpan_eq hclasses]
  split
  · exact agree_throw _
  · refine (statementsAgree hclasses).statement.bind_found ?_
    intro _ _ _ _ _ hstmt
    refine (agree_finalStatements hstmt).bind_passed ?_
    intro _ _ _ _ _ hstmts
    exact agree_found hstmts

/-- What is found at a place is what is read from the tokens from there on, and the next
place is as far from the end as tokens are left. -/
theorem result_eq_readAt
    {read : Span → (tokens : List Token) → Except SourceError (Parsed α tokens)}
    {found : Except SourceError (Found α tokens place)}
    (hagree : Agree Found.Matches found (read (endSpan tokens.toList) (tokens.toList.drop place))) :
    Found.result found = readAt read tokens.toList place := by
  unfold readAt
  generalize read (endSpan tokens.toList) (tokens.toList.drop place) = parsed at hagree ⊢
  cases found with
  | error error =>
    cases parsed with
    | error other => exact congrArg Except.error hagree
    | ok parsed => exact hagree.elim
  | ok found =>
    cases parsed with
    | error other => exact hagree.elim
    | ok parsed =>
      obtain ⟨hvalue, hrest⟩ := hagree
      have hinside := found.within.2
      have hnext : tokens.toList.length - parsed.rest.length = found.next := by
        rw [hrest.length_eq, Array.length_toList]
        omega
      refine congrArg Except.ok (Prod.ext hvalue.symm ?_)
      exact hnext.symm

end Indexed

section Places

open Indexed

variable (tokens : Array Token) (place : Nat)

/-- Parsing a program at a place is parsing the list of tokens from there. -/
theorem programAt_eq : programAt tokens place = readAt program tokens.toList place :=
  result_eq_readAt (agree_program (isRest_drop tokens place))

theorem classDefAt_eq : classDefAt tokens place = readAt classDef tokens.toList place :=
  result_eq_readAt (agree_classDef (isRest_drop tokens place))

theorem statementAt_eq : statementAt tokens place = readAt statement tokens.toList place :=
  result_eq_readAt (statementsAgree (isRest_drop tokens place)).statement

theorem expressionAt_eq : expressionAt tokens place = readAt expression tokens.toList place :=
  result_eq_readAt (agree_expression (isRest_drop tokens place))

end Places

end ClassLang.Parser
