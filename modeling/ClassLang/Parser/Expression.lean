import ClassLang.Parser.Basic
import ClassLang.Syntax.Basic
import ClassLang.Text.Decimal

/-!
# Parsing expressions

Sums are made of products, products of member chains, and chains start with a
primary expression.  All three levels group to the left.
-/

namespace ClassLang.Parser

/-- The two levels of arithmetic. -/
inductive Level where
  | sum
  | product
  deriving DecidableEq

/-- The operator that a kind of token stands for at a level. -/
def Level.op? : Level → Kind → Option Op
  | .sum, .plus => some .plus
  | .sum, .minus => some .minus
  | .product, .star => some .times
  | .product, .slash => some .divide
  | _, _ => none

/-- Sums hold products, so they come later in the order of the parsers. -/
@[simp]
def Level.rank : Level → Nat
  | .sum => 1
  | .product => 0

/-- The kinds of token with which a primary expression can start. -/
def primaryKinds : List Kind :=
  [.int, .trueWord, .falseWord, .thisWord, .ident, .newWord, .openParen, .printlnWord]

mutual

/-- One level of arithmetic: an operand, then operators of this level with
their right operands. -/
def binary (stop : Span) (level : Level) (tokens : List Token) :
    Except SourceError (Parsed Exp tokens) := do
  let ⟨left, after, hafter⟩ ← operand stop level tokens
  let ⟨exp, rest, hrest⟩ ← operators stop level left after
  return ⟨exp, rest, by omega⟩
termination_by 8 * tokens.length + 2 * level.rank + 3

/-- An operand of a level is an expression of the next tighter one. -/
def operand (stop : Span) (level : Level) (tokens : List Token) :
    Except SourceError (Parsed Exp tokens) :=
  match level with
  | .sum => binary stop .product tokens
  | .product => chain stop tokens
termination_by 8 * tokens.length + 2 * level.rank + 2
decreasing_by all_goals simp only [Level.rank]; omega

/-- The operators of a level that follow `left`, folded to the left. -/
def operators (stop : Span) (level : Level) (left : Exp) (tokens : List Token) :
    Except SourceError (Continued Exp tokens) :=
  match tokens with
  | [] => return ⟨left, [], Nat.le_refl _⟩
  | token :: after =>
    match level.op? token.kind with
    | none => return ⟨left, token :: after, Nat.le_refl _⟩
    | some op => do
      let ⟨right, afterRight, hright⟩ ← operand stop level after
      let ⟨exp, rest, hrest⟩ ← operators stop level (.binary left op right) afterRight
      have hshorter := shorter_of_notLonger hrest hright
      have hnotLonger := notLonger_of_shorter hshorter
      return ⟨exp, rest, notLonger_cons hnotLonger⟩
termination_by 8 * tokens.length
decreasing_by
  · cases level <;> simp only [Level.rank, List.length_cons] <;> omega
  · simp only [List.length_cons]; omega

/-- A primary expression and the members that are selected from it. -/
def chain (stop : Span) (tokens : List Token) : Except SourceError (Parsed Exp tokens) := do
  let ⟨receiver, after, hafter⟩ ← primary stop tokens
  let ⟨exp, rest, hrest⟩ ← members stop receiver after
  return ⟨exp, rest, by omega⟩
termination_by 8 * tokens.length + 1

/-- The steps `.name` and `.name(args)` that follow `receiver`. -/
def members (stop : Span) (receiver : Exp) (tokens : List Token) :
    Except SourceError (Continued Exp tokens) :=
  match accept? .period tokens with
  | none => return ⟨receiver, tokens, Nat.le_refl _⟩
  | some ⟨_, afterPeriod, hperiod⟩ => do
    let ⟨name, afterName, hname⟩ ← expect stop "member access" [.ident] afterPeriod
    if peek afterName = .openParen then
      let ⟨args, afterArgs, hargs⟩ ← arguments stop "method call" afterName
      let step := Exp.call (.name name.lexeme) args
      let ⟨exp, rest, hrest⟩ ← members stop (.binary receiver .member step) afterArgs
      return ⟨exp, rest, by omega⟩
    else
      let step := Exp.name name.lexeme
      let ⟨exp, rest, hrest⟩ ← members stop (.binary receiver .member step) afterName
      return ⟨exp, rest, by omega⟩
termination_by 8 * tokens.length

/-- Expressions in parentheses, with commas between them. -/
def arguments (stop : Span) (context : String) (tokens : List Token) :
    Except SourceError (Parsed (List Exp) tokens) := do
  let ⟨_, after, hafter⟩ ← expect stop context [.openParen] tokens
  match accept? .closeParen after with
  | some ⟨_, rest, hrest⟩ => return ⟨[], rest, by omega⟩
  | none =>
    let ⟨args, rest, hrest⟩ ← argumentList stop context after
    return ⟨args, rest, by omega⟩
termination_by 8 * tokens.length

/-- At least one argument, up to and including the closing parenthesis. -/
def argumentList (stop : Span) (context : String) (tokens : List Token) :
    Except SourceError (Parsed (List Exp) tokens) := do
  let ⟨arg, after, hafter⟩ ← binary stop .sum tokens
  let ⟨mark, afterMark, hmark⟩ ← expect stop context [.comma, .closeParen] after
  if mark.kind = .closeParen then
    return ⟨[arg], afterMark, by omega⟩
  else
    let ⟨args, rest, hrest⟩ ← argumentList stop context afterMark
    return ⟨arg :: args, rest, by omega⟩
termination_by 8 * tokens.length + 6

def primary (stop : Span) (tokens : List Token) : Except SourceError (Parsed Exp tokens) := do
  let ⟨token, after, hafter⟩ ← expect stop "expression" primaryKinds tokens
  match token.kind with
  | .int =>
    match Text.readInt64? token.lexeme with
    | some value => return ⟨.int value, after, hafter⟩
    | none => throw (.integerOutOfRange token.lexeme token.span)
  | .trueWord => return ⟨.bool true, after, hafter⟩
  | .falseWord => return ⟨.bool false, after, hafter⟩
  | .thisWord => return ⟨.this, after, hafter⟩
  | .ident => return ⟨.name token.lexeme, after, hafter⟩
  | .newWord =>
    let ⟨name, afterName, hname⟩ ← expect stop "new expression" [.ident] after
    let ⟨_, afterOpen, hopen⟩ ← expect stop "new expression" [.openParen] afterName
    let ⟨_, rest, hrest⟩ ← expect stop "new expression" [.closeParen] afterOpen
    return ⟨.new name.lexeme, rest, by omega⟩
  | .openParen =>
    let ⟨inner, afterInner, hinner⟩ ← binary stop .sum after
    let ⟨_, rest, hrest⟩ ← expect stop "parenthesized expression" [.closeParen] afterInner
    return ⟨inner, rest, by omega⟩
  | .printlnWord =>
    let ⟨_, afterOpen, hopen⟩ ← expect stop "println" [.openParen] after
    let ⟨inner, afterInner, hinner⟩ ← binary stop .sum afterOpen
    let ⟨_, rest, hrest⟩ ← expect stop "println" [.closeParen] afterInner
    return ⟨.println inner, rest, by omega⟩
  | kind => throw (.unhandledKind kind token.span)
termination_by 8 * tokens.length

end

/-- A whole expression. -/
def expression (stop : Span) (tokens : List Token) : Except SourceError (Parsed Exp tokens) :=
  binary stop .sum tokens

end ClassLang.Parser
