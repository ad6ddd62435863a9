import ClassLang.Parser.Program

/-!
# What the parsers return

Each parser returns its tree and the rest together with a proof that the rest
is shorter, and the type of that proof mentions the input.  The equations of
this module forget the proof.  They say for every parser what it does first and
which parser goes on from there, with the errors as they are, and nothing that
is proved about the parsers has to unfold them again.
-/

namespace ClassLang.Parser

variable {α β γ δ : Type}

/-- What was read and what is left, or why nothing was read. -/
def Parsed.outcome {tokens : List Token} (result : Except SourceError (Parsed α tokens)) :
    Except SourceError (α × List Token) :=
  result.map fun parsed => (parsed.value, parsed.rest)

@[inherit_doc Parsed.outcome]
def Continued.outcome {tokens : List Token}
    (result : Except SourceError (Continued α tokens)) : Except SourceError (α × List Token) :=
  result.map fun continued => (continued.value, continued.rest)

/-- A parser that succeeds takes at least one token. -/
theorem Parsed.length_of_outcome {tokens rest : List Token} {value : α}
    {result : Except SourceError (Parsed α tokens)}
    (heq : Parsed.outcome result = .ok (value, rest)) : rest.length < tokens.length := by
  rcases result with error | parsed
  · cases heq
  · cases heq
    exact parsed.shorter

theorem Continued.length_of_outcome {tokens rest : List Token} {value : α}
    {result : Except SourceError (Continued α tokens)}
    (heq : Continued.outcome result = .ok (value, rest)) : rest.length ≤ tokens.length := by
  rcases result with error | continued
  · cases heq
  · cases heq
    exact continued.notLonger

/-- Reading at a place is reading the tokens from there, and the next place is what the
tokens left make of it. -/
theorem readAt_eq_ok {read : Span → (tokens : List Token) → Except SourceError (Parsed α tokens)}
    {tokens : List Token} {place next : Nat} {value : α} :
    readAt read tokens place = .ok (value, next) ↔
      ∃ rest, Parsed.outcome (read (endSpan tokens) (tokens.drop place)) = .ok (value, rest) ∧
        tokens.length - rest.length = next := by
  unfold readAt
  cases read (endSpan tokens) (tokens.drop place) with
  | error error =>
    constructor
    · intro heq
      cases heq
    · rintro ⟨rest, heq, -⟩
      cases heq
  | ok parsed =>
    constructor
    · intro heq
      cases heq
      exact ⟨parsed.rest, rfl, rfl⟩
    · rintro ⟨rest, heq, rfl⟩
      cases heq
      rfl

/-- Reading at a place fails as reading the tokens from there does. -/
theorem readAt_eq_error
    {read : Span → (tokens : List Token) → Except SourceError (Parsed α tokens)}
    {tokens : List Token} {place : Nat} {error : SourceError}
    (houtcome : Parsed.outcome (read (endSpan tokens) (tokens.drop place)) = .error error) :
    readAt read tokens place = .error error := by
  unfold readAt
  cases hread : read (endSpan tokens) (tokens.drop place) with
  | error other =>
    rw [hread] at houtcome
    cases houtcome
    rfl
  | ok parsed =>
    rw [hread] at houtcome
    cases houtcome

/-! ## Sequencing -/

/-- A step and what follows it can forget their proofs one after the other. -/
theorem map_bind {first : Except SourceError α} {next : α → Except SourceError β}
    {view : α → γ} {forget : β → δ} {plain : γ → Except SourceError δ}
    (hnext : ∀ value, (next value).map forget = plain (view value)) :
    (first >>= next).map forget = first.map view >>= plain := by
  cases first with
  | error error => rfl
  | ok value => exact hnext value

/-- The same where the second step counts on what the first one returns. -/
theorem map_bind_of_ok {first : Except SourceError α} {next : α → Except SourceError β}
    {view : α → γ} {forget : β → δ} {plain : γ → Except SourceError δ}
    (hnext : ∀ value, first = .ok value → (next value).map forget = plain (view value)) :
    (first >>= next).map forget = first.map view >>= plain := by
  cases first with
  | error error => rfl
  | ok value => exact hnext value rfl

/-- A last step that only rebuilds the proof changes nothing else. -/
theorem map_bind_last {first : Except SourceError α} {next : α → Except SourceError β}
    {view : α → γ} {forget : β → γ}
    (hnext : ∀ value, (next value).map forget = .ok (view value)) :
    (first >>= next).map forget = first.map view := by
  cases first with
  | error error => rfl
  | ok value => exact hnext value

theorem bind_eq_ok {first : Except SourceError α} {next : α → Except SourceError β} {value : β}
    (heq : first >>= next = .ok value) :
    ∃ middle, first = .ok middle ∧ next middle = .ok value := by
  cases first with
  | error error => cases heq
  | ok middle => exact ⟨middle, rfl, heq⟩

/-- A step fails by itself or in what comes after it. -/
theorem bind_eq_error {ε : Type} {first : Except ε α} {next : α → Except ε β} {error : ε}
    (heq : first >>= next = .error error) :
    first = .error error ∨ ∃ middle, first = .ok middle ∧ next middle = .error error := by
  cases first with
  | error other =>
    cases heq
    exact .inl rfl
  | ok middle => exact .inr ⟨middle, rfl, heq⟩

/-! ## Single tokens -/

@[simp]
theorem peek_cons (token : Token) (rest : List Token) : peek (token :: rest) = token.kind := rfl

/-- The token in front is taken if it is of the kind that is looked for. -/
theorem accept?_of_peek {kind : Kind} {tokens : List Token} (hpeek : peek tokens = kind)
    (hend : kind ≠ .eof) :
    ∃ token hlength, accept? kind tokens = some ⟨token, tokens.tail, hlength⟩ := by
  cases tokens with
  | nil => exact absurd hpeek.symm hend
  | cons token rest =>
    have hkind : token.kind = kind := hpeek
    exact ⟨token, Nat.lt_succ_self _, by simp only [accept?, hkind, if_true, List.tail_cons]⟩

theorem accept?_of_ne {kind : Kind} {tokens : List Token} (hpeek : peek tokens ≠ kind) :
    accept? kind tokens = none := by
  cases tokens with
  | nil => rfl
  | cons token rest =>
    have hkind : token.kind ≠ kind := hpeek
    simp only [accept?, hkind, if_false]

theorem outcome_expect_cons {kinds : List Kind} {token : Token} (stop : Span)
    (context : String) (rest : List Token) (hkind : token.kind ∈ kinds) :
    Parsed.outcome (expect stop context kinds (token :: rest)) = .ok (token, rest) := by
  simp only [expect, hkind, if_true]
  rfl

/-- A token of another kind is reported with the kinds that could have stood there. -/
theorem outcome_expect_of_not_mem {kinds : List Kind} {tokens : List Token} (stop : Span)
    (context : String) (hpeek : peek tokens ∉ kinds) :
    Parsed.outcome (expect stop context kinds tokens) =
      .error (.unexpectedKind kinds (peek tokens) context (peekSpan stop tokens)) := by
  cases tokens with
  | nil => rfl
  | cons token rest =>
    have hkind : token.kind ∉ kinds := hpeek
    simp only [expect, hkind, if_false]
    rfl

/-- The token that was expected is the one in front. -/
theorem eq_cons_of_outcome_expect {stop : Span} {context : String} {kinds : List Kind}
    {tokens rest : List Token} {token : Token}
    (heq : Parsed.outcome (expect stop context kinds tokens) = .ok (token, rest)) :
    tokens = token :: rest ∧ token.kind ∈ kinds := by
  by_cases hpeek : peek tokens ∈ kinds
  · cases tokens with
    | nil => cases heq
    | cons first after =>
      rw [outcome_expect_cons stop context after hpeek] at heq
      cases heq
      exact ⟨rfl, hpeek⟩
  · rw [outcome_expect_of_not_mem stop context hpeek] at heq
    cases heq

theorem kind_mem_of_expect {stop : Span} {context : String} {kinds : List Kind}
    {tokens : List Token} {parsed : Parsed Token tokens}
    (heq : expect stop context kinds tokens = .ok parsed) : parsed.value.kind ∈ kinds := by
  have houtcome := congrArg Parsed.outcome heq
  exact (eq_cons_of_outcome_expect houtcome).2

/-! ## Expressions -/

/-- An operand, and then the operators of the level. -/
theorem outcome_binary (stop : Span) (level : Level) (tokens : List Token) :
    Parsed.outcome (binary stop level tokens) =
      (do
        let (left, after) ← Parsed.outcome (operand stop level tokens)
        Continued.outcome (operators stop level left after)) := by
  rw [binary]
  refine map_bind fun ⟨left, after, _⟩ => ?_
  exact map_bind_last fun _ => rfl

theorem operand_sum (stop : Span) (tokens : List Token) :
    operand stop .sum tokens = binary stop .product tokens := by
  rw [operand]

theorem operand_product (stop : Span) (tokens : List Token) :
    operand stop .product tokens = chain stop tokens := by
  rw [operand]

/-- Without an operator of the level the loop is done.  Otherwise it goes on with a larger
expression on the left. -/
theorem outcome_operators (stop : Span) (level : Level) (left : Exp) (tokens : List Token) :
    Continued.outcome (operators stop level left tokens) =
      (match level.op? (peek tokens) with
      | none => .ok (left, tokens)
      | some op => do
        let (right, afterRight) ← Parsed.outcome (operand stop level tokens.tail)
        Continued.outcome (operators stop level (.binary left op right) afterRight)) := by
  rw [operators.eq_def]
  cases tokens with
  | nil => cases level <;> rfl
  | cons token after =>
    rw [peek_cons, List.tail_cons]
    dsimp only
    cases level.op? token.kind with
    | none => rfl
    | some op =>
      refine map_bind fun ⟨right, afterRight, _⟩ => ?_
      exact map_bind_last fun _ => rfl

theorem outcome_chain (stop : Span) (tokens : List Token) :
    Parsed.outcome (chain stop tokens) =
      (do
        let (receiver, after) ← Parsed.outcome (primary stop tokens)
        Continued.outcome (members stop receiver after)) := by
  rw [chain]
  refine map_bind fun ⟨receiver, after, _⟩ => ?_
  exact map_bind_last fun _ => rfl

/-- Each period is followed by a name, and a parenthesis after the name makes it a
call. -/
theorem outcome_members (stop : Span) (receiver : Exp) (tokens : List Token) :
    Continued.outcome (members stop receiver tokens) =
      if peek tokens = .period then do
        let (name, afterName) ←
          Parsed.outcome (expect stop "member access" [.ident] tokens.tail)
        if peek afterName = .openParen then
          let (args, afterArgs) ← Parsed.outcome (arguments stop "method call" afterName)
          Continued.outcome
            (members stop (.binary receiver .member (.call (.name name.lexeme) args)) afterArgs)
        else
          Continued.outcome
            (members stop (.binary receiver .member (.name name.lexeme)) afterName)
      else .ok (receiver, tokens) := by
  rw [members]
  by_cases hpeek : peek tokens = .period
  · obtain ⟨period, hperiod, haccept⟩ := accept?_of_peek hpeek (by decide)
    rw [if_pos hpeek, haccept]
    refine map_bind fun ⟨name, afterName, _⟩ => ?_
    dsimp only
    split
    · refine map_bind fun ⟨args, afterArgs, _⟩ => ?_
      exact map_bind_last fun _ => rfl
    · exact map_bind_last fun _ => rfl
  · rw [if_neg hpeek, accept?_of_ne hpeek]
    rfl

theorem outcome_arguments (stop : Span) (context : String) (tokens : List Token) :
    Parsed.outcome (arguments stop context tokens) =
      (do
        let (_, after) ← Parsed.outcome (expect stop context [.openParen] tokens)
        if peek after = .closeParen then .ok ([], after.tail)
        else Parsed.outcome (argumentList stop context after)) := by
  rw [arguments]
  refine map_bind fun ⟨_, after, _⟩ => ?_
  dsimp only
  by_cases hpeek : peek after = .closeParen
  · obtain ⟨closing, hclosing, haccept⟩ := accept?_of_peek hpeek (by decide)
    rw [if_pos hpeek, haccept]
    rfl
  · rw [if_neg hpeek, accept?_of_ne hpeek]
    exact map_bind_last fun _ => rfl

theorem outcome_argumentList (stop : Span) (context : String) (tokens : List Token) :
    Parsed.outcome (argumentList stop context tokens) =
      (do
        let (arg, after) ← Parsed.outcome (binary stop .sum tokens)
        let (mark, afterMark) ← Parsed.outcome (expect stop context [.comma, .closeParen] after)
        if mark.kind = .closeParen then .ok ([arg], afterMark)
        else
          let (args, rest) ← Parsed.outcome (argumentList stop context afterMark)
          .ok (arg :: args, rest)) := by
  rw [argumentList]
  refine map_bind fun ⟨arg, after, _⟩ => ?_
  refine map_bind fun ⟨mark, afterMark, _⟩ => ?_
  dsimp only
  split
  · rfl
  · exact map_bind fun _ => rfl

/-- The kind of the first token says what a primary expression is. -/
theorem outcome_primary (stop : Span) (tokens : List Token) :
    Parsed.outcome (primary stop tokens) =
      (do
        let (token, after) ← Parsed.outcome (expect stop "expression" primaryKinds tokens)
        match token.kind with
        | .int =>
          match Text.readInt64? token.lexeme with
          | some value => .ok (.int value, after)
          | none => .error (.integerOutOfRange token.lexeme token.span)
        | .trueWord => .ok (.bool true, after)
        | .falseWord => .ok (.bool false, after)
        | .thisWord => .ok (.this, after)
        | .newWord =>
          let (name, afterName) ← Parsed.outcome (expect stop "new expression" [.ident] after)
          let (_, afterOpen) ←
            Parsed.outcome (expect stop "new expression" [.openParen] afterName)
          let (_, rest) ← Parsed.outcome (expect stop "new expression" [.closeParen] afterOpen)
          .ok (.new name.lexeme, rest)
        | .openParen =>
          let (inner, afterInner) ← Parsed.outcome (binary stop .sum after)
          let (_, rest) ←
            Parsed.outcome (expect stop "parenthesized expression" [.closeParen] afterInner)
          .ok (inner, rest)
        | .printlnWord =>
          let (_, afterOpen) ← Parsed.outcome (expect stop "println" [.openParen] after)
          let (inner, afterInner) ← Parsed.outcome (binary stop .sum afterOpen)
          let (_, rest) ← Parsed.outcome (expect stop "println" [.closeParen] afterInner)
          .ok (.println inner, rest)
        | _ => .ok (.name token.lexeme, after)) := by
  rw [primary]
  apply map_bind_of_ok
  rintro ⟨⟨kind, lexeme, span⟩, after, hafter⟩ hexpect
  have hkind : kind ∈ primaryKinds := kind_mem_of_expect hexpect
  -- No other kind is asked for, so the last branch is never taken.
  simp only [primaryKinds, List.mem_cons, List.not_mem_nil, or_false] at hkind
  rcases hkind with rfl | rfl | rfl | rfl | rfl | rfl | rfl | rfl
  case inl =>
    dsimp only
    cases Text.readInt64? lexeme <;> rfl
  case inr.inr.inr.inr.inr.inl =>
    refine map_bind fun ⟨name, afterName, _⟩ => ?_
    refine map_bind fun ⟨_, afterOpen, _⟩ => ?_
    exact map_bind fun _ => rfl
  case inr.inr.inr.inr.inr.inr.inl =>
    refine map_bind fun ⟨inner, afterInner, _⟩ => ?_
    exact map_bind fun _ => rfl
  case inr.inr.inr.inr.inr.inr.inr =>
    refine map_bind fun ⟨_, afterOpen, _⟩ => ?_
    refine map_bind fun ⟨inner, afterInner, _⟩ => ?_
    exact map_bind fun _ => rfl
  all_goals rfl

/-! ## Statements -/

theorem outcome_type (stop : Span) (tokens : List Token) :
    Parsed.outcome (type stop tokens) =
      (do
        let (token, rest) ←
          Parsed.outcome (expect stop "type" [.intWord, .boolWord, .voidWord, .ident] tokens)
        match token.kind with
        | .intWord => .ok (.int, rest)
        | .boolWord => .ok (.bool, rest)
        | .voidWord => .ok (.void, rest)
        | _ => .ok (.named token.lexeme, rest)) := by
  apply map_bind_of_ok
  rintro ⟨⟨kind, lexeme, span⟩, rest, hrest⟩ hexpect
  have hkind : kind ∈ [.intWord, .boolWord, .voidWord, .ident] := kind_mem_of_expect hexpect
  simp only [List.mem_cons, List.not_mem_nil, or_false] at hkind
  rcases hkind with rfl | rfl | rfl | rfl <;> rfl

theorem outcome_typedName (stop : Span) (context : String) (tokens : List Token) :
    Parsed.outcome (typedName stop context tokens) =
      (do
        let (type, afterType) ← Parsed.outcome (type stop tokens)
        let (name, rest) ← Parsed.outcome (expect stop context [.ident] afterType)
        .ok (⟨type, name.lexeme⟩, rest)) := by
  refine map_bind fun ⟨type, afterType, _⟩ => ?_
  exact map_bind fun _ => rfl

theorem outcome_declaration (stop : Span) (context : String) (tokens : List Token) :
    Parsed.outcome (declaration stop context tokens) =
      (do
        let (dec, afterName) ← Parsed.outcome (typedName stop context tokens)
        let (_, rest) ← Parsed.outcome (expect stop context [.semicolon] afterName)
        .ok (dec, rest)) := by
  refine map_bind fun ⟨dec, afterName, _⟩ => ?_
  exact map_bind fun _ => rfl

theorem outcome_condition (stop : Span) (context : String) (tokens : List Token) :
    Parsed.outcome (condition stop context tokens) =
      (do
        let (_, afterOpen) ← Parsed.outcome (expect stop context [.openParen] tokens)
        let (cond, afterCond) ← Parsed.outcome (binary stop .sum afterOpen)
        let (_, rest) ← Parsed.outcome (expect stop context [.closeParen] afterCond)
        .ok (cond, rest)) := by
  refine map_bind fun ⟨_, afterOpen, _⟩ => ?_
  refine map_bind fun ⟨cond, afterCond, _⟩ => ?_
  exact map_bind fun _ => rfl

/-- An equals sign makes an assignment only of what can be assigned to. -/
theorem outcome_expressionStatement (stop : Span) (tokens : List Token) :
    Parsed.outcome (expressionStatement stop tokens) =
      (do
        let (exp, after) ← Parsed.outcome (binary stop .sum tokens)
        if peek after = .equals ∧ exp.isAssignable = true then
          let (value, afterValue) ← Parsed.outcome (binary stop .sum after.tail)
          let (_, rest) ← Parsed.outcome (expect stop "assignment" [.semicolon] afterValue)
          .ok (.assign exp value, rest)
        else
          let (_, rest) ←
            Parsed.outcome (expect stop "expression statement" [.semicolon] after)
          .ok (.expression exp, rest)) := by
  refine map_bind fun ⟨exp, after, _⟩ => ?_
  dsimp only
  by_cases hpeek : peek after = .equals
  · obtain ⟨sign, hsign, haccept⟩ := accept?_of_peek hpeek (by decide)
    rw [haccept]
    cases hassignable : exp.isAssignable with
    | true =>
      rw [if_pos ⟨hpeek, rfl⟩]
      refine map_bind fun ⟨value, afterValue, _⟩ => ?_
      exact map_bind fun _ => rfl
    | false =>
      rw [if_neg (by simp)]
      exact map_bind fun _ => rfl
  · rw [if_neg fun hboth => hpeek hboth.1, accept?_of_ne hpeek]
    exact map_bind fun _ => rfl

theorem outcome_returned (stop : Span) (tokens : List Token) :
    Parsed.outcome (returned stop tokens) =
      (if peek tokens = .semicolon then .ok (.returnNone, tokens.tail)
      else do
        let (value, afterValue) ← Parsed.outcome (binary stop .sum tokens)
        let (_, rest) ← Parsed.outcome (expect stop "return statement" [.semicolon] afterValue)
        .ok (.returnValue value, rest)) := by
  unfold returned
  by_cases hpeek : peek tokens = .semicolon
  · obtain ⟨semicolon, hsemicolon, haccept⟩ := accept?_of_peek hpeek (by decide)
    rw [if_pos hpeek, haccept]
    rfl
  · rw [if_neg hpeek, accept?_of_ne hpeek]
    refine map_bind fun ⟨value, afterValue, _⟩ => ?_
    exact map_bind fun _ => rfl

/-- The kind of the first token says which statement it is. -/
theorem outcome_statement (stop : Span) (tokens : List Token) :
    Parsed.outcome (statement stop tokens) =
      (match peek tokens with
      | .breakWord => do
        let (_, rest) ←
          Parsed.outcome (expect stop "break statement" [.semicolon] tokens.tail)
        .ok (.breakLoop, rest)
      | .returnWord => Parsed.outcome (returned stop tokens.tail)
      | .openBrace => do
        let (stmts, rest) ← Parsed.outcome (statements stop "block" tokens.tail)
        .ok (.block stmts, rest)
      | .whileWord => do
        let (cond, afterCond) ← Parsed.outcome (condition stop "while statement" tokens.tail)
        let (body, rest) ← Parsed.outcome (statement stop afterCond)
        .ok (.whileLoop cond body, rest)
      | .ifWord => do
        let (cond, afterCond) ← Parsed.outcome (condition stop "if statement" tokens.tail)
        let (yes, afterYes) ← Parsed.outcome (statement stop afterCond)
        if peek afterYes = .elseWord then
          let (no, rest) ← Parsed.outcome (statement stop afterYes.tail)
          .ok (.ifElse cond yes no, rest)
        else .ok (.ifThen cond yes, afterYes)
      | _ =>
        if startsDeclaration tokens then do
          let (dec, rest) ←
            Parsed.outcome (declaration stop "variable declaration" tokens)
          .ok (.declare dec, rest)
        else Parsed.outcome (expressionStatement stop tokens)) := by
  rw [statement.eq_def]
  cases tokens with
  | nil => rfl
  | cons token after =>
    obtain ⟨kind, lexeme, span⟩ := token
    rw [peek_cons, List.tail_cons]
    cases kind
    case breakWord => exact map_bind fun _ => rfl
    case returnWord => exact map_bind_last fun _ => rfl
    case openBrace => exact map_bind fun _ => rfl
    case whileWord =>
      refine map_bind fun ⟨cond, afterCond, _⟩ => ?_
      exact map_bind fun _ => rfl
    case ifWord =>
      refine map_bind fun ⟨cond, afterCond, _⟩ => ?_
      refine map_bind fun ⟨yes, afterYes, _⟩ => ?_
      dsimp only
      by_cases hpeek : peek afterYes = .elseWord
      · obtain ⟨word, hword, haccept⟩ := accept?_of_peek hpeek (by decide)
        rw [if_pos hpeek, haccept]
        exact map_bind fun _ => rfl
      · rw [if_neg hpeek, accept?_of_ne hpeek]
        rfl
    all_goals
      dsimp only
      split
      · exact map_bind fun _ => rfl
      · rfl

/-- A statement that starts like an expression or a type is a declaration or an
expression statement. -/
theorem outcome_statement_plain {stop : Span} {tokens : List Token}
    (hpeek : peek tokens ∉ [.breakWord, .returnWord, .openBrace, .whileWord, .ifWord]) :
    Parsed.outcome (statement stop tokens) =
      (if startsDeclaration tokens then do
        let (dec, rest) ← Parsed.outcome (declaration stop "variable declaration" tokens)
        .ok (.declare dec, rest)
      else Parsed.outcome (expressionStatement stop tokens)) := by
  rw [outcome_statement]
  split
  case h_6 => rfl
  all_goals
    next hkind =>
    rw [hkind] at hpeek
    exact absurd hpeek (by decide)

/-- Statements go on to the closing brace, and the end of the tokens comes too early. -/
theorem outcome_statements (stop : Span) (context : String) (tokens : List Token) :
    Parsed.outcome (statements stop context tokens) =
      (if peek tokens = .closeBrace then .ok ([], tokens.tail)
      else if peek tokens = .eof then
        .error (.unexpectedKind [.closeBrace] .eof context (peekSpan stop tokens))
      else do
        let (stmt, after) ← Parsed.outcome (statement stop tokens)
        let (stmts, rest) ← Parsed.outcome (statements stop context after)
        .ok (stmt :: stmts, rest)) := by
  rw [statements.eq_def]
  by_cases hpeek : peek tokens = .closeBrace
  · obtain ⟨closing, hclosing, haccept⟩ := accept?_of_peek hpeek (by decide)
    rw [if_pos hpeek, haccept]
    rfl
  · rw [if_neg hpeek, accept?_of_ne hpeek]
    dsimp only
    split
    · rfl
    · refine map_bind fun ⟨stmt, after, _⟩ => ?_
      exact map_bind fun _ => rfl

theorem outcome_block (stop : Span) (tokens : List Token) :
    Parsed.outcome (block stop tokens) =
      (do
        let (_, after) ← Parsed.outcome (expect stop "block" [.openBrace] tokens)
        Parsed.outcome (statements stop "block" after)) := by
  refine map_bind fun ⟨_, after, _⟩ => ?_
  exact map_bind_last fun _ => rfl

/-! ## Classes and programs -/

theorem outcome_parameterList (stop : Span) (context : String) (tokens : List Token) :
    Parsed.outcome (parameterList stop context tokens) =
      (do
        let (param, after) ← Parsed.outcome (typedName stop context tokens)
        let (mark, afterMark) ← Parsed.outcome (expect stop context [.comma, .closeParen] after)
        if mark.kind = .closeParen then .ok ([param], afterMark)
        else
          let (params, rest) ← Parsed.outcome (parameterList stop context afterMark)
          .ok (param :: params, rest)) := by
  rw [parameterList]
  refine map_bind fun ⟨param, after, _⟩ => ?_
  refine map_bind fun ⟨mark, afterMark, _⟩ => ?_
  dsimp only
  split
  · rfl
  · exact map_bind fun _ => rfl

theorem outcome_parameters (stop : Span) (context : String) (tokens : List Token) :
    Parsed.outcome (parameters stop context tokens) =
      (do
        let (_, after) ← Parsed.outcome (expect stop context [.openParen] tokens)
        if peek after = .closeParen then .ok ([], after.tail)
        else Parsed.outcome (parameterList stop context after)) := by
  refine map_bind fun ⟨_, after, _⟩ => ?_
  dsimp only
  by_cases hpeek : peek after = .closeParen
  · obtain ⟨closing, hclosing, haccept⟩ := accept?_of_peek hpeek (by decide)
    rw [if_pos hpeek, haccept]
    rfl
  · rw [if_neg hpeek, accept?_of_ne hpeek]
    exact map_bind_last fun _ => rfl

/-- Only a class with a base may call it. -/
theorem outcome_superCall (stop : Span) (className : String) (base : Option String)
    (tokens : List Token) :
    Continued.outcome (superCall stop className base tokens) =
      (if peek tokens = .superWord then
        match base with
        | none => .error (.superWithoutBase className (peekSpan stop tokens))
        | some _ => do
          let (args, afterArgs) ← Parsed.outcome (arguments stop "super call" tokens.tail)
          let (_, rest) ← Parsed.outcome (expect stop "super call" [.semicolon] afterArgs)
          .ok (some args, rest)
      else .ok (none, tokens)) := by
  unfold superCall
  by_cases hpeek : peek tokens = .superWord
  · cases tokens with
    | nil => cases hpeek
    | cons token after =>
      have hkind : token.kind = .superWord := hpeek
      rw [if_pos hpeek, List.tail_cons]
      simp only [accept?, hkind, if_true]
      cases base with
      | none => rfl
      | some name =>
        apply map_bind
        rintro ⟨args, afterArgs, hargs⟩
        exact map_bind fun _ => rfl
  · rw [if_neg hpeek, accept?_of_ne hpeek]
    rfl

theorem outcome_constructor (stop : Span) (className : String) (base : Option String)
    (tokens : List Token) :
    Parsed.outcome (constructor stop className base tokens) =
      (do
        let (_, afterInit) ← Parsed.outcome (expect stop "constructor" [.initWord] tokens)
        let (params, afterParams) ←
          Parsed.outcome (parameters stop "constructor parameters" afterInit)
        let (_, afterOpen) ←
          Parsed.outcome (expect stop "constructor body" [.openBrace] afterParams)
        let (call, afterCall) ← Continued.outcome (superCall stop className base afterOpen)
        let (body, rest) ← Parsed.outcome (statements stop "constructor body" afterCall)
        .ok (⟨params, call.isSome, call.getD [], body⟩, rest)) := by
  refine map_bind fun ⟨_, afterInit, _⟩ => ?_
  refine map_bind fun ⟨params, afterParams, _⟩ => ?_
  refine map_bind fun ⟨_, afterOpen, _⟩ => ?_
  refine map_bind fun ⟨call, afterCall, _⟩ => ?_
  exact map_bind fun _ => rfl

theorem outcome_method (stop : Span) (tokens : List Token) :
    Parsed.outcome (method stop tokens) =
      (do
        let (_, afterWord) ←
          Parsed.outcome (expect stop "method definition" [.methodWord] tokens)
        let (name, afterName) ←
          Parsed.outcome (expect stop "method definition" [.ident] afterWord)
        let (params, afterParams) ←
          Parsed.outcome (parameters stop "method parameters" afterName)
        let (returnType, afterType) ← Parsed.outcome (type stop afterParams)
        let (body, rest) ← Parsed.outcome (block stop afterType)
        .ok (⟨name.lexeme, returnType, params, body⟩, rest)) := by
  refine map_bind fun ⟨_, afterWord, _⟩ => ?_
  refine map_bind fun ⟨name, afterName, _⟩ => ?_
  refine map_bind fun ⟨params, afterParams, _⟩ => ?_
  refine map_bind fun ⟨returnType, afterType, _⟩ => ?_
  exact map_bind fun _ => rfl

theorem outcome_fields (stop : Span) (tokens : List Token) :
    Continued.outcome (fields stop tokens) =
      (if startsDeclaration tokens then do
        let (dec, after) ← Parsed.outcome (declaration stop "field declaration" tokens)
        let (decs, rest) ← Continued.outcome (fields stop after)
        .ok (dec :: decs, rest)
      else .ok ([], tokens)) := by
  rw [fields]
  split
  · refine map_bind fun ⟨dec, after, _⟩ => ?_
    exact map_bind fun _ => rfl
  · rfl

theorem outcome_methods (stop : Span) (tokens : List Token) :
    Continued.outcome (methods stop tokens) =
      (if peek tokens = .methodWord then do
        let (first, after) ← Parsed.outcome (method stop tokens)
        let (others, rest) ← Continued.outcome (methods stop after)
        .ok (first :: others, rest)
      else .ok ([], tokens)) := by
  rw [methods]
  split
  · refine map_bind fun ⟨first, after, _⟩ => ?_
    exact map_bind fun _ => rfl
  · rfl

/-- An empty name names no base. -/
theorem outcome_extendsClause (stop : Span) (tokens : List Token) :
    Continued.outcome (extendsClause stop tokens) =
      (if peek tokens = .extendsWord then do
        let (base, rest) ← Parsed.outcome (expect stop "extends clause" [.ident] tokens.tail)
        .ok (if base.lexeme.isEmpty then none else some base.lexeme, rest)
      else .ok (none, tokens)) := by
  unfold extendsClause
  by_cases hpeek : peek tokens = .extendsWord
  · obtain ⟨word, hword, haccept⟩ := accept?_of_peek hpeek (by decide)
    rw [if_pos hpeek, haccept]
    exact map_bind fun _ => rfl
  · rw [if_neg hpeek, accept?_of_ne hpeek]
    rfl

/-- A class is its name, its base, its fields, its constructor and its methods. -/
theorem outcome_classDef (stop : Span) (tokens : List Token) :
    Parsed.outcome (classDef stop tokens) =
      (do
        let (_, afterWord) ←
          Parsed.outcome (expect stop "class definition" [.classWord] tokens)
        let (name, afterName) ←
          Parsed.outcome (expect stop "class definition" [.ident] afterWord)
        let (base, afterBase) ← Continued.outcome (extendsClause stop afterName)
        let (_, afterOpen) ← Parsed.outcome (expect stop "class body" [.openBrace] afterBase)
        let (fields, afterFields) ← Continued.outcome (fields stop afterOpen)
        let (init, afterInit) ←
          Parsed.outcome (constructor stop name.lexeme base afterFields)
        let (methods, afterMethods) ← Continued.outcome (methods stop afterInit)
        let (_, rest) ← Parsed.outcome (expect stop "class body" [.closeBrace] afterMethods)
        .ok (⟨name.lexeme, base, fields, init, methods⟩, rest)) := by
  refine map_bind fun ⟨_, afterWord, _⟩ => ?_
  refine map_bind fun ⟨name, afterName, _⟩ => ?_
  refine map_bind fun ⟨base, afterBase, _⟩ => ?_
  refine map_bind fun ⟨_, afterOpen, _⟩ => ?_
  refine map_bind fun ⟨fields, afterFields, _⟩ => ?_
  refine map_bind fun ⟨init, afterInit, _⟩ => ?_
  refine map_bind fun ⟨methods, afterMethods, _⟩ => ?_
  exact map_bind fun _ => rfl

theorem outcome_classes (stop : Span) (tokens : List Token) :
    Continued.outcome (classes stop tokens) =
      (if peek tokens = .classWord then do
        let (first, after) ← Parsed.outcome (classDef stop tokens)
        let (others, rest) ← Continued.outcome (classes stop after)
        .ok (first :: others, rest)
      else .ok ([], tokens)) := by
  rw [classes]
  split
  · refine map_bind fun ⟨first, after, _⟩ => ?_
    exact map_bind fun _ => rfl
  · rfl

theorem outcome_finalStatements (stop : Span) (tokens : List Token) :
    Continued.outcome (finalStatements stop tokens) =
      (if peek tokens = .eof then .ok ([], tokens)
      else do
        let (stmt, after) ← Parsed.outcome (statement stop tokens)
        let (stmts, rest) ← Continued.outcome (finalStatements stop after)
        .ok (stmt :: stmts, rest)) := by
  rw [finalStatements]
  split
  · rfl
  · refine map_bind fun ⟨stmt, after, _⟩ => ?_
    exact map_bind fun _ => rfl

/-- A program is its classes and at least one statement. -/
theorem outcome_program (stop : Span) (tokens : List Token) :
    Parsed.outcome (program stop tokens) =
      (do
        let (classes, afterClasses) ← Continued.outcome (classes stop tokens)
        if peek afterClasses = .eof then
          .error (.missingStatement (peekSpan stop afterClasses))
        else
          let (stmt, after) ← Parsed.outcome (statement stop afterClasses)
          let (stmts, rest) ← Continued.outcome (finalStatements stop after)
          .ok (⟨classes, stmt :: stmts⟩, rest)) := by
  refine map_bind fun ⟨classes, afterClasses, _⟩ => ?_
  dsimp only
  split
  · rfl
  · refine map_bind fun ⟨stmt, after, _⟩ => ?_
    exact map_bind fun _ => rfl

end ClassLang.Parser
