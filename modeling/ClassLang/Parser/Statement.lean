import ClassLang.Parser.Expression

/-!
# Parsing statements

A statement is told by its first token, except that a name may start a
declaration as well as an expression: it starts a declaration when another name
follows it.  An `else` belongs to the nearest `if` before it, because the
branch is read first and takes any `else` that follows.
-/

namespace ClassLang

/-- What can stand on the left of an assignment: a name, or a member access
that ends in a name. -/
def Exp.isAssignable : Exp → Bool
  | .name _ => true
  | .binary _ .member (.name _) => true
  | _ => false

namespace Parser

def type (stop : Span) (tokens : List Token) : Except SourceError (Parsed Ty tokens) := do
  let ⟨token, rest, hrest⟩ ←
    expect stop "type" [.intWord, .boolWord, .voidWord, .ident] tokens
  match token.kind with
  | .intWord => return ⟨.int, rest, hrest⟩
  | .boolWord => return ⟨.bool, rest, hrest⟩
  | .voidWord => return ⟨.void, rest, hrest⟩
  | .ident => return ⟨.named token.lexeme, rest, hrest⟩
  | kind => throw (.unhandledKind kind token.span)

/-- A type and a name, with nothing after them. -/
def typedName (stop : Span) (context : String) (tokens : List Token) :
    Except SourceError (Parsed VarDec tokens) := do
  let ⟨type, afterType, htype⟩ ← type stop tokens
  let ⟨name, rest, hrest⟩ ← expect stop context [.ident] afterType
  return ⟨⟨type, name.lexeme⟩, rest, shorter_trans hrest htype⟩

/-- A type, a name and a semicolon. -/
def declaration (stop : Span) (context : String) (tokens : List Token) :
    Except SourceError (Parsed VarDec tokens) := do
  let ⟨dec, afterName, hname⟩ ← typedName stop context tokens
  let ⟨_, rest, hrest⟩ ← expect stop context [.semicolon] afterName
  return ⟨dec, rest, shorter_trans hrest hname⟩

/-- A declaration starts with a built-in type or with two names. -/
def startsDeclaration : List Token → Bool
  | [] => false
  | token :: after => token.kind.isType || (token.kind = .ident && peek after = .ident)

/-- An expression in parentheses, after `while` or `if`. -/
def condition (stop : Span) (context : String) (tokens : List Token) :
    Except SourceError (Parsed Exp tokens) := do
  let ⟨_, afterOpen, hopen⟩ ← expect stop context [.openParen] tokens
  let ⟨cond, afterCond, hcond⟩ ← expression stop afterOpen
  have hinner := shorter_trans hcond hopen
  let ⟨_, rest, hrest⟩ ← expect stop context [.closeParen] afterCond
  return ⟨cond, rest, shorter_trans hrest hinner⟩

/-- An assignment, or an expression evaluated for its effect. -/
def expressionStatement (stop : Span) (tokens : List Token) :
    Except SourceError (Parsed Stmt tokens) := do
  let ⟨exp, after, hafter⟩ ← expression stop tokens
  match accept? .equals after, exp.isAssignable with
  | some ⟨_, afterSign, hsign⟩, true =>
    have hleft := shorter_trans hsign hafter
    let ⟨value, afterValue, hvalue⟩ ← expression stop afterSign
    have hright := shorter_trans hvalue hleft
    let ⟨_, rest, hrest⟩ ← expect stop "assignment" [.semicolon] afterValue
    return ⟨.assign exp value, rest, shorter_trans hrest hright⟩
  | _, _ =>
    let ⟨_, rest, hrest⟩ ← expect stop "expression statement" [.semicolon] after
    return ⟨.expression exp, rest, shorter_trans hrest hafter⟩

/-- What follows the word `return`. -/
def returned (stop : Span) (tokens : List Token) : Except SourceError (Parsed Stmt tokens) :=
  match accept? .semicolon tokens with
  | some ⟨_, rest, hrest⟩ => return ⟨.returnNone, rest, hrest⟩
  | none => do
    let ⟨value, afterValue, hvalue⟩ ← expression stop tokens
    let ⟨_, rest, hrest⟩ ← expect stop "return statement" [.semicolon] afterValue
    return ⟨.returnValue value, rest, shorter_trans hrest hvalue⟩

mutual

def statement (stop : Span) (tokens : List Token) : Except SourceError (Parsed Stmt tokens) :=
  match tokens with
  | [] => expressionStatement stop []
  | token :: after =>
    match token.kind with
    | .breakWord => do
      let ⟨_, rest, hrest⟩ ← expect stop "break statement" [.semicolon] after
      return ⟨.breakLoop, rest, shorter_cons hrest⟩
    | .returnWord => do
      let ⟨stmt, rest, hrest⟩ ← returned stop after
      return ⟨stmt, rest, shorter_cons hrest⟩
    | .openBrace => do
      let ⟨stmts, rest, hrest⟩ ← statements stop "block" after
      return ⟨.block stmts, rest, shorter_cons hrest⟩
    | .whileWord => do
      let ⟨cond, afterCond, hcond⟩ ← condition stop "while statement" after
      let ⟨body, rest, hrest⟩ ← statement stop afterCond
      have hbody := shorter_trans hrest hcond
      return ⟨.whileLoop cond body, rest, shorter_cons hbody⟩
    | .ifWord => do
      let ⟨cond, afterCond, hcond⟩ ← condition stop "if statement" after
      let ⟨yes, afterYes, hyes⟩ ← statement stop afterCond
      have hbranch := shorter_trans hyes hcond
      match accept? .elseWord afterYes with
      | some ⟨_, afterElse, helse⟩ =>
        have hword := shorter_trans helse hbranch
        let ⟨no, rest, hrest⟩ ← statement stop afterElse
        have hbranches := shorter_trans hrest hword
        return ⟨.ifElse cond yes no, rest, shorter_cons hbranches⟩
      | none => return ⟨.ifThen cond yes, afterYes, shorter_cons hbranch⟩
    | _ =>
      if startsDeclaration (token :: after) then do
        let ⟨dec, rest, hrest⟩ ← declaration stop "variable declaration" (token :: after)
        return ⟨.declare dec, rest, hrest⟩
      else expressionStatement stop (token :: after)
termination_by 2 * tokens.length

/-- Statements up to and including the closing brace. -/
def statements (stop : Span) (context : String) (tokens : List Token) :
    Except SourceError (Parsed (List Stmt) tokens) :=
  match accept? .closeBrace tokens with
  | some ⟨_, rest, hrest⟩ => return ⟨[], rest, hrest⟩
  | none =>
    if peek tokens = .eof then
      throw (.unexpectedKind [.closeBrace] .eof context (peekSpan stop tokens))
    else do
      let ⟨stmt, after, hafter⟩ ← statement stop tokens
      let ⟨stmts, rest, hrest⟩ ← statements stop context after
      return ⟨stmt :: stmts, rest, shorter_trans hrest hafter⟩
termination_by 2 * tokens.length + 1

end

/-- Statements in braces. -/
def block (stop : Span) (tokens : List Token) : Except SourceError (Parsed (List Stmt) tokens) := do
  let ⟨_, after, hafter⟩ ← expect stop "block" [.openBrace] tokens
  let ⟨stmts, rest, hrest⟩ ← statements stop "block" after
  return ⟨stmts, rest, shorter_trans hrest hafter⟩

end Parser

end ClassLang
