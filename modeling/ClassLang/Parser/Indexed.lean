import ClassLang.Parser.Program
import ClassLang.Token.Cursor

/-!
# Parsing at a place

All parsers look at the same array of tokens.  Each takes the place of its first
token and returns a tree together with the place of the first token that it did
not take.  So any of them can be applied at any place.  Behind the last token
reads like an end token, which is reported at the last character of the last
token.

What a parser returns records that the next place is behind the first one, but
not behind the end, so that every loop and every recursion comes to an end.
-/

namespace ClassLang

namespace Parser.Indexed

/-- A construct that starts at `place`, and the place after it. -/
structure Found (α : Type) (tokens : Array Token) (place : Nat) where
  value : α
  next : Nat
  within : place < next ∧ next ≤ tokens.size

/-- What a loop found from `place` on, which may be nothing. -/
structure Passed (α : Type) (tokens : Array Token) (place : Nat) where
  value : α
  next : Nat
  within : place ≤ next ∧ next ≤ max place tokens.size

/-- The result of a parser for those who only need to know where to go on. -/
def Found.result {α : Type} {tokens : Array Token} {place : Nat}
    (outcome : Except SourceError (Found α tokens place)) : Except SourceError (α × Nat) :=
  outcome.map fun found => (found.value, found.next)

theorem within_succ {size place : Nat} (hplace : place < size) :
    place < place + 1 ∧ place + 1 ≤ size :=
  ⟨Nat.lt_succ_self place, hplace⟩

theorem within_self (size place : Nat) : place ≤ place ∧ place ≤ max place size :=
  ⟨Nat.le_refl place, Nat.le_max_left place size⟩

section Within

variable {size place middle next : Nat}

/-- A construct and one after it. -/
theorem found_found (first : place < middle ∧ middle ≤ size)
    (last : middle < next ∧ next ≤ size) : place < next ∧ next ≤ size :=
  ⟨Nat.lt_trans first.1 last.1, last.2⟩

/-- A construct and a loop after it. -/
theorem found_passed (first : place < middle ∧ middle ≤ size)
    (last : middle ≤ next ∧ next ≤ max middle size) : place < next ∧ next ≤ size :=
  ⟨Nat.lt_of_lt_of_le first.1 last.1, Nat.max_eq_right first.2 ▸ last.2⟩

/-- A loop and a construct after it. -/
theorem passed_found (first : place ≤ middle ∧ middle ≤ max place size)
    (last : middle < next ∧ next ≤ size) : place < next ∧ next ≤ size :=
  ⟨Nat.lt_of_le_of_lt first.1 last.1, last.2⟩

/-- A loop that found something. -/
theorem passed_of_found (found : place < next ∧ next ≤ size) :
    place ≤ next ∧ next ≤ max place size :=
  ⟨Nat.le_of_lt found.1, Nat.le_trans found.2 (Nat.le_max_right place size)⟩

end Within

/-! ## Tokens -/

/-- The kind of the token at a place. -/
def peek (tokens : Array Token) (place : Nat) : Kind :=
  if hplace : place < tokens.size then tokens[place].kind else .eof

/-- The span of the token at a place. -/
def peekSpan (tokens : Array Token) (place : Nat) : Span :=
  if hplace : place < tokens.size then tokens[place].span else endSpan tokens.toList

/-- The token at a place, if it is of the given kind. -/
def accept? (tokens : Array Token) (kind : Kind) (place : Nat) :
    Option (Found Token tokens place) :=
  if hplace : place < tokens.size then
    if tokens[place].kind = kind then some ⟨tokens[place], place + 1, within_succ hplace⟩
    else none
  else none

/-- The token at a place, which has to be of one of the given kinds. -/
def expect (tokens : Array Token) (context : String) (kinds : List Kind) (place : Nat) :
    Except SourceError (Found Token tokens place) :=
  if hplace : place < tokens.size then
    if tokens[place].kind ∈ kinds then .ok ⟨tokens[place], place + 1, within_succ hplace⟩
    else .error (.unexpectedKind kinds tokens[place].kind context tokens[place].span)
  else .error (.unexpectedKind kinds .eof context (endSpan tokens.toList))

/-! ## Expressions -/

mutual

/-- One level of arithmetic: an operand, then operators of this level with
their right operands. -/
def binary (tokens : Array Token) (level : Level) (place : Nat) :
    Except SourceError (Found Exp tokens place) := do
  let ⟨left, after, hafter⟩ ← operand tokens level place
  let ⟨exp, next, hnext⟩ ← operators tokens level left after
  return ⟨exp, next, found_passed hafter hnext⟩
termination_by 8 * (tokens.size - place) + 2 * level.rank + 3

/-- An operand of a level is an expression of the next tighter one. -/
def operand (tokens : Array Token) (level : Level) (place : Nat) :
    Except SourceError (Found Exp tokens place) :=
  match level with
  | .sum => binary tokens .product place
  | .product => chain tokens place
termination_by 8 * (tokens.size - place) + 2 * level.rank + 2
decreasing_by all_goals simp only [Level.rank]; omega

/-- The operators of a level that follow `left`, folded to the left. -/
def operators (tokens : Array Token) (level : Level) (left : Exp) (place : Nat) :
    Except SourceError (Passed Exp tokens place) :=
  if hplace : place < tokens.size then
    match level.op? tokens[place].kind with
    | none => return ⟨left, place, within_self _ _⟩
    | some op => do
      let ⟨right, afterRight, hright⟩ ← operand tokens level (place + 1)
      let ⟨exp, next, hnext⟩ ← operators tokens level (.binary left op right) afterRight
      return ⟨exp, next,
        passed_of_found <| found_found (within_succ hplace) <| found_passed hright hnext⟩
  else return ⟨left, place, within_self _ _⟩
termination_by 8 * (tokens.size - place)
decreasing_by
  · cases level <;> simp only [Level.rank] <;> omega
  · omega

/-- A primary expression and the members that are selected from it. -/
def chain (tokens : Array Token) (place : Nat) :
    Except SourceError (Found Exp tokens place) := do
  let ⟨receiver, after, hafter⟩ ← primary tokens place
  let ⟨exp, next, hnext⟩ ← members tokens receiver after
  return ⟨exp, next, found_passed hafter hnext⟩
termination_by 8 * (tokens.size - place) + 1

/-- The steps `.name` and `.name(args)` that follow `receiver`. -/
def members (tokens : Array Token) (receiver : Exp) (place : Nat) :
    Except SourceError (Passed Exp tokens place) :=
  match accept? tokens .period place with
  | none => return ⟨receiver, place, within_self _ _⟩
  | some ⟨_, afterPeriod, hperiod⟩ => do
    let ⟨name, afterName, hname⟩ ← expect tokens "member access" [.ident] afterPeriod
    if peek tokens afterName = .openParen then
      let ⟨args, afterArgs, hargs⟩ ← arguments tokens "method call" afterName
      let step := Exp.call (.name name.lexeme) args
      let ⟨exp, next, hnext⟩ ← members tokens (.binary receiver .member step) afterArgs
      return ⟨exp, next,
        passed_of_found <| found_found hperiod <| found_found hname <| found_passed hargs hnext⟩
    else
      let step := Exp.name name.lexeme
      let ⟨exp, next, hnext⟩ ← members tokens (.binary receiver .member step) afterName
      return ⟨exp, next,
        passed_of_found <| found_found hperiod <| found_passed hname hnext⟩
termination_by 8 * (tokens.size - place)

/-- Expressions in parentheses, with commas between them. -/
def arguments (tokens : Array Token) (context : String) (place : Nat) :
    Except SourceError (Found (List Exp) tokens place) := do
  let ⟨_, after, hafter⟩ ← expect tokens context [.openParen] place
  match accept? tokens .closeParen after with
  | some ⟨_, next, hnext⟩ => return ⟨[], next, found_found hafter hnext⟩
  | none =>
    let ⟨args, next, hnext⟩ ← argumentList tokens context after
    return ⟨args, next, found_found hafter hnext⟩
termination_by 8 * (tokens.size - place)

/-- At least one argument, up to and including the closing parenthesis. -/
def argumentList (tokens : Array Token) (context : String) (place : Nat) :
    Except SourceError (Found (List Exp) tokens place) := do
  let ⟨arg, after, hafter⟩ ← binary tokens .sum place
  let ⟨mark, afterMark, hmark⟩ ← expect tokens context [.comma, .closeParen] after
  if mark.kind = .closeParen then
    return ⟨[arg], afterMark, found_found hafter hmark⟩
  else
    let ⟨args, next, hnext⟩ ← argumentList tokens context afterMark
    return ⟨arg :: args, next, found_found hafter <| found_found hmark hnext⟩
termination_by 8 * (tokens.size - place) + 6

def primary (tokens : Array Token) (place : Nat) :
    Except SourceError (Found Exp tokens place) := do
  let ⟨token, after, hafter⟩ ← expect tokens "expression" primaryKinds place
  match token.kind with
  | .int =>
    match Text.readInt64? token.lexeme with
    | some value => return ⟨.int value, after, hafter⟩
    | none => throw (.integerOutOfRange token.lexeme token.span)
  | .trueWord => return ⟨.bool true, after, hafter⟩
  | .falseWord => return ⟨.bool false, after, hafter⟩
  | .thisWord => return ⟨.this, after, hafter⟩
  | .ident => return ⟨.name token.lexeme, after, hafter⟩
  | .newWord =>
    let ⟨name, afterName, hname⟩ ← expect tokens "new expression" [.ident] after
    let ⟨_, afterOpen, hopen⟩ ← expect tokens "new expression" [.openParen] afterName
    let ⟨_, next, hnext⟩ ← expect tokens "new expression" [.closeParen] afterOpen
    return ⟨.new name.lexeme, next,
      found_found hafter <| found_found hname <| found_found hopen hnext⟩
  | .openParen =>
    let ⟨inner, afterInner, hinner⟩ ← binary tokens .sum after
    let ⟨_, next, hnext⟩ ← expect tokens "parenthesized expression" [.closeParen] afterInner
    return ⟨inner, next, found_found hafter <| found_found hinner hnext⟩
  | .printlnWord =>
    let ⟨_, afterOpen, hopen⟩ ← expect tokens "println" [.openParen] after
    let ⟨inner, afterInner, hinner⟩ ← binary tokens .sum afterOpen
    let ⟨_, next, hnext⟩ ← expect tokens "println" [.closeParen] afterInner
    return ⟨.println inner, next,
      found_found hafter <| found_found hopen <| found_found hinner hnext⟩
  | kind => throw (.unhandledKind kind token.span)
termination_by 8 * (tokens.size - place)

end

/-- A whole expression. -/
def expression (tokens : Array Token) (place : Nat) :
    Except SourceError (Found Exp tokens place) :=
  binary tokens .sum place

/-! ## Declarations -/

def type (tokens : Array Token) (place : Nat) : Except SourceError (Found Ty tokens place) := do
  let ⟨token, next, hnext⟩ ←
    expect tokens "type" [.intWord, .boolWord, .voidWord, .ident] place
  match token.kind with
  | .intWord => return ⟨.int, next, hnext⟩
  | .boolWord => return ⟨.bool, next, hnext⟩
  | .voidWord => return ⟨.void, next, hnext⟩
  | .ident => return ⟨.named token.lexeme, next, hnext⟩
  | kind => throw (.unhandledKind kind token.span)

/-- A type and a name, with nothing after them. -/
def typedName (tokens : Array Token) (context : String) (place : Nat) :
    Except SourceError (Found VarDec tokens place) := do
  let ⟨type, afterType, htype⟩ ← type tokens place
  let ⟨name, next, hnext⟩ ← expect tokens context [.ident] afterType
  return ⟨⟨type, name.lexeme⟩, next, found_found htype hnext⟩

/-- A type, a name and a semicolon. -/
def declaration (tokens : Array Token) (context : String) (place : Nat) :
    Except SourceError (Found VarDec tokens place) := do
  let ⟨dec, afterName, hname⟩ ← typedName tokens context place
  let ⟨_, next, hnext⟩ ← expect tokens context [.semicolon] afterName
  return ⟨dec, next, found_found hname hnext⟩

/-- A declaration starts with a built-in type or with two names. -/
def startsDeclaration (tokens : Array Token) (place : Nat) : Bool :=
  (peek tokens place).isType ||
    (peek tokens place = .ident && peek tokens (place + 1) = .ident)

/-! ## Statements -/

/-- An expression in parentheses, after `while` or `if`. -/
def condition (tokens : Array Token) (context : String) (place : Nat) :
    Except SourceError (Found Exp tokens place) := do
  let ⟨_, afterOpen, hopen⟩ ← expect tokens context [.openParen] place
  let ⟨cond, afterCond, hcond⟩ ← expression tokens afterOpen
  let ⟨_, next, hnext⟩ ← expect tokens context [.closeParen] afterCond
  return ⟨cond, next, found_found hopen <| found_found hcond hnext⟩

/-- An assignment, or an expression evaluated for its effect. -/
def expressionStatement (tokens : Array Token) (place : Nat) :
    Except SourceError (Found Stmt tokens place) := do
  let ⟨exp, after, hafter⟩ ← expression tokens place
  match accept? tokens .equals after, exp.isAssignable with
  | some ⟨_, afterSign, hsign⟩, true =>
    let ⟨value, afterValue, hvalue⟩ ← expression tokens afterSign
    let ⟨_, next, hnext⟩ ← expect tokens "assignment" [.semicolon] afterValue
    return ⟨.assign exp value, next,
      found_found hafter <| found_found hsign <| found_found hvalue hnext⟩
  | _, _ =>
    let ⟨_, next, hnext⟩ ← expect tokens "expression statement" [.semicolon] after
    return ⟨.expression exp, next, found_found hafter hnext⟩

/-- What follows the word `return`. -/
def returned (tokens : Array Token) (place : Nat) :
    Except SourceError (Found Stmt tokens place) :=
  match accept? tokens .semicolon place with
  | some ⟨_, next, hnext⟩ => return ⟨.returnNone, next, hnext⟩
  | none => do
    let ⟨value, afterValue, hvalue⟩ ← expression tokens place
    let ⟨_, next, hnext⟩ ← expect tokens "return statement" [.semicolon] afterValue
    return ⟨.returnValue value, next, found_found hvalue hnext⟩

mutual

def statement (tokens : Array Token) (place : Nat) :
    Except SourceError (Found Stmt tokens place) :=
  if hplace : place < tokens.size then
    match tokens[place].kind with
    | .breakWord => do
      let ⟨_, next, hnext⟩ ← expect tokens "break statement" [.semicolon] (place + 1)
      return ⟨.breakLoop, next, found_found (within_succ hplace) hnext⟩
    | .returnWord => do
      let ⟨stmt, next, hnext⟩ ← returned tokens (place + 1)
      return ⟨stmt, next, found_found (within_succ hplace) hnext⟩
    | .openBrace => do
      let ⟨stmts, next, hnext⟩ ← statements tokens "block" (place + 1)
      return ⟨.block stmts, next, found_found (within_succ hplace) hnext⟩
    | .whileWord => do
      let ⟨cond, afterCond, hcond⟩ ← condition tokens "while statement" (place + 1)
      let ⟨body, next, hnext⟩ ← statement tokens afterCond
      return ⟨.whileLoop cond body, next,
        found_found (within_succ hplace) <| found_found hcond hnext⟩
    | .ifWord => do
      let ⟨cond, afterCond, hcond⟩ ← condition tokens "if statement" (place + 1)
      let ⟨yes, afterYes, hyes⟩ ← statement tokens afterCond
      match accept? tokens .elseWord afterYes with
      | some ⟨_, afterElse, helse⟩ =>
        let ⟨no, next, hnext⟩ ← statement tokens afterElse
        return ⟨.ifElse cond yes no, next,
          found_found (within_succ hplace) <| found_found hcond <| found_found hyes <|
            found_found helse hnext⟩
      | none => return ⟨.ifThen cond yes, afterYes,
        found_found (within_succ hplace) <| found_found hcond hyes⟩
    | _ =>
      if startsDeclaration tokens place then do
        let ⟨dec, next, hnext⟩ ← declaration tokens "variable declaration" place
        return ⟨.declare dec, next, hnext⟩
      else expressionStatement tokens place
  else expressionStatement tokens place
termination_by 2 * (tokens.size - place)

/-- Statements up to and including the closing brace. -/
def statements (tokens : Array Token) (context : String) (place : Nat) :
    Except SourceError (Found (List Stmt) tokens place) :=
  match accept? tokens .closeBrace place with
  | some ⟨_, next, hnext⟩ => return ⟨[], next, hnext⟩
  | none =>
    if peek tokens place = .eof then
      throw (.unexpectedKind [.closeBrace] .eof context (peekSpan tokens place))
    else do
      let ⟨stmt, after, hafter⟩ ← statement tokens place
      let ⟨stmts, next, hnext⟩ ← statements tokens context after
      return ⟨stmt :: stmts, next, found_found hafter hnext⟩
termination_by 2 * (tokens.size - place) + 1

end

/-- Statements in braces. -/
def block (tokens : Array Token) (place : Nat) :
    Except SourceError (Found (List Stmt) tokens place) := do
  let ⟨_, after, hafter⟩ ← expect tokens "block" [.openBrace] place
  let ⟨stmts, next, hnext⟩ ← statements tokens "block" after
  return ⟨stmts, next, found_found hafter hnext⟩

/-! ## Classes -/

/-- Parameters up to and including the closing parenthesis; there is at least
one. -/
def parameterList (tokens : Array Token) (context : String) (place : Nat) :
    Except SourceError (Found (List VarDec) tokens place) := do
  let ⟨param, after, hafter⟩ ← typedName tokens context place
  let ⟨mark, afterMark, hmark⟩ ← expect tokens context [.comma, .closeParen] after
  if mark.kind = .closeParen then
    return ⟨[param], afterMark, found_found hafter hmark⟩
  else
    let ⟨params, next, hnext⟩ ← parameterList tokens context afterMark
    return ⟨param :: params, next, found_found hafter <| found_found hmark hnext⟩
termination_by tokens.size - place

/-- Parameters in parentheses, with commas between them. -/
def parameters (tokens : Array Token) (context : String) (place : Nat) :
    Except SourceError (Found (List VarDec) tokens place) := do
  let ⟨_, after, hafter⟩ ← expect tokens context [.openParen] place
  match accept? tokens .closeParen after with
  | some ⟨_, next, hnext⟩ => return ⟨[], next, found_found hafter hnext⟩
  | none =>
    let ⟨params, next, hnext⟩ ← parameterList tokens context after
    return ⟨params, next, found_found hafter hnext⟩

/-- The call of the base class's constructor, if the body of a constructor
starts with one.  Only a class with a base may have it. -/
def superCall (tokens : Array Token) (className : String) (base : Option String)
    (place : Nat) : Except SourceError (Passed (Option (List Exp)) tokens place) :=
  match accept? tokens .superWord place with
  | none => return ⟨none, place, within_self _ _⟩
  | some ⟨word, after, hafter⟩ =>
    match base with
    | none => throw (.superWithoutBase className word.span)
    | some _ => do
      let ⟨args, afterArgs, hargs⟩ ← arguments tokens "super call" after
      let ⟨_, next, hnext⟩ ← expect tokens "super call" [.semicolon] afterArgs
      return ⟨some args, next,
        passed_of_found <| found_found hafter <| found_found hargs hnext⟩

/-- The constructor of the class with the given name and base. -/
def constructor (tokens : Array Token) (className : String) (base : Option String)
    (place : Nat) : Except SourceError (Found Constructor tokens place) := do
  let ⟨_, afterInit, hinit⟩ ← expect tokens "constructor" [.initWord] place
  let ⟨params, afterParams, hparams⟩ ← parameters tokens "constructor parameters" afterInit
  let ⟨_, afterOpen, hopen⟩ ← expect tokens "constructor body" [.openBrace] afterParams
  let ⟨call, afterCall, hcall⟩ ← superCall tokens className base afterOpen
  let ⟨body, next, hnext⟩ ← statements tokens "constructor body" afterCall
  return ⟨⟨params, call.isSome, call.getD [], body⟩, next,
    found_found hinit <| found_found hparams <| found_found hopen <| passed_found hcall hnext⟩

def method (tokens : Array Token) (place : Nat) :
    Except SourceError (Found Method tokens place) := do
  let ⟨_, afterWord, hword⟩ ← expect tokens "method definition" [.methodWord] place
  let ⟨name, afterName, hname⟩ ← expect tokens "method definition" [.ident] afterWord
  let ⟨params, afterParams, hparams⟩ ← parameters tokens "method parameters" afterName
  let ⟨returnType, afterType, htype⟩ ← type tokens afterParams
  let ⟨body, next, hnext⟩ ← block tokens afterType
  return ⟨⟨name.lexeme, returnType, params, body⟩, next,
    found_found hword <| found_found hname <| found_found hparams <| found_found htype hnext⟩

def fields (tokens : Array Token) (place : Nat) :
    Except SourceError (Passed (List VarDec) tokens place) :=
  if startsDeclaration tokens place then do
    let ⟨dec, after, hafter⟩ ← declaration tokens "field declaration" place
    let ⟨decs, next, hnext⟩ ← fields tokens after
    return ⟨dec :: decs, next, passed_of_found (found_passed hafter hnext)⟩
  else return ⟨[], place, within_self _ _⟩
termination_by tokens.size - place

def methods (tokens : Array Token) (place : Nat) :
    Except SourceError (Passed (List Method) tokens place) :=
  if peek tokens place = .methodWord then do
    let ⟨first, after, hafter⟩ ← method tokens place
    let ⟨others, next, hnext⟩ ← methods tokens after
    return ⟨first :: others, next, passed_of_found (found_passed hafter hnext)⟩
  else return ⟨[], place, within_self _ _⟩
termination_by tokens.size - place

/-- The base class, if one is named.  An empty name names none. -/
def extendsClause (tokens : Array Token) (place : Nat) :
    Except SourceError (Passed (Option String) tokens place) :=
  match accept? tokens .extendsWord place with
  | none => return ⟨none, place, within_self _ _⟩
  | some ⟨_, after, hafter⟩ => do
    let ⟨base, next, hnext⟩ ← expect tokens "extends clause" [.ident] after
    return ⟨if base.lexeme.isEmpty then none else some base.lexeme, next,
      passed_of_found (found_found hafter hnext)⟩

def classDef (tokens : Array Token) (place : Nat) :
    Except SourceError (Found ClassDef tokens place) := do
  let ⟨_, afterWord, hword⟩ ← expect tokens "class definition" [.classWord] place
  let ⟨name, afterName, hname⟩ ← expect tokens "class definition" [.ident] afterWord
  let ⟨base, afterBase, hbase⟩ ← extendsClause tokens afterName
  let ⟨_, afterOpen, hopen⟩ ← expect tokens "class body" [.openBrace] afterBase
  let ⟨fields, afterFields, hfields⟩ ← fields tokens afterOpen
  let ⟨init, afterInit, hinit⟩ ← constructor tokens name.lexeme base afterFields
  let ⟨methods, afterMethods, hmethods⟩ ← methods tokens afterInit
  let ⟨_, next, hnext⟩ ← expect tokens "class body" [.closeBrace] afterMethods
  return ⟨⟨name.lexeme, base, fields, init, methods⟩, next,
    found_found hword <| found_found hname <| passed_found hbase <| found_found hopen <|
      passed_found hfields <| found_found hinit <| passed_found hmethods hnext⟩

/-! ## Programs -/

def classes (tokens : Array Token) (place : Nat) :
    Except SourceError (Passed (List ClassDef) tokens place) :=
  if peek tokens place = .classWord then do
    let ⟨first, after, hafter⟩ ← classDef tokens place
    let ⟨others, next, hnext⟩ ← classes tokens after
    return ⟨first :: others, next, passed_of_found (found_passed hafter hnext)⟩
  else return ⟨[], place, within_self _ _⟩
termination_by tokens.size - place

/-- The statements up to the end, which is left to be read. -/
def finalStatements (tokens : Array Token) (place : Nat) :
    Except SourceError (Passed (List Stmt) tokens place) :=
  if peek tokens place = .eof then return ⟨[], place, within_self _ _⟩
  else do
    let ⟨stmt, after, hafter⟩ ← statement tokens place
    let ⟨stmts, next, hnext⟩ ← finalStatements tokens after
    return ⟨stmt :: stmts, next, passed_of_found (found_passed hafter hnext)⟩
termination_by tokens.size - place

def program (tokens : Array Token) (place : Nat) :
    Except SourceError (Found Program tokens place) := do
  let ⟨classes, afterClasses, hclasses⟩ ← classes tokens place
  if peek tokens afterClasses = .eof then
    throw (.missingStatement (peekSpan tokens afterClasses))
  else
    let ⟨stmt, after, hafter⟩ ← statement tokens afterClasses
    let ⟨stmts, next, hnext⟩ ← finalStatements tokens after
    return ⟨⟨classes, stmt :: stmts⟩, next,
      passed_found hclasses (found_passed hafter hnext)⟩

end Parser.Indexed

namespace Parser

open Indexed

def programAt (tokens : Array Token) (place : Nat) : Except SourceError (Program × Nat) :=
  Found.result (Indexed.program tokens place)

def classDefAt (tokens : Array Token) (place : Nat) : Except SourceError (ClassDef × Nat) :=
  Found.result (Indexed.classDef tokens place)

def statementAt (tokens : Array Token) (place : Nat) : Except SourceError (Stmt × Nat) :=
  Found.result (Indexed.statement tokens place)

def expressionAt (tokens : Array Token) (place : Nat) : Except SourceError (Exp × Nat) :=
  Found.result (Indexed.expression tokens place)

/-- Where reading can go on after a parser was applied at a place: behind the
construct, or at the same place if there is none. -/
def nextPlace {α : Type} (place : Nat) (outcome : Except SourceError (α × Nat)) : Nat :=
  match outcome with
  | .ok (_, next) => next
  | .error _ => place

end Parser

/-- The program that a list of tokens writes. -/
def Program.ofTokens (tokens : List Token) : Except SourceError Program :=
  (Parser.programAt tokens.toArray 0).map Prod.fst

/-- The program that a source writes. -/
def Program.ofSource (source file : String) : Except SourceError Program :=
  tokenize source file >>= Program.ofTokens

end ClassLang
