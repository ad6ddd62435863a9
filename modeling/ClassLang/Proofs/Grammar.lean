import ClassLang.Syntax.Basic
import ClassLang.Text.Decimal
import ClassLang.Token.Basic
import ClassLang.Token.Lexeme

/-!
# The grammar

Which lists of lexemes write which trees.  The rules are the grammar of the
class language as it is explained to its users: sums, products and member
chains are left recursive, and nothing is said about how much to read or how
far to look ahead.  Only one rule looks at a tree: an `else` needs a branch
before it that no `else` could still join.
-/

namespace ClassLang

/-- What is left of a token when its place is forgotten. -/
def Token.toLexeme (token : Token) : Lexeme :=
  ⟨token.kind, token.lexeme.toList⟩

def Lexeme.text (lexeme : Lexeme) : String :=
  String.ofList lexeme.chars

@[simp]
theorem Token.kind_toLexeme (token : Token) : token.toLexeme.kind = token.kind := rfl

@[simp]
theorem Token.text_toLexeme (token : Token) : token.toLexeme.text = token.lexeme :=
  String.ofList_toList

/-- Whether a statement ends in an `if` without `else`, which an `else` after
the statement would join. -/
def Stmt.endsOpen : Stmt → Bool
  | .ifThen _ _ => true
  | .ifElse _ _ no => no.endsOpen
  | .whileLoop _ body => body.endsOpen
  | _ => false

namespace Grammar

def sumOperators : List (Kind × Op) :=
  [(.plus, .plus), (.minus, .minus)]

def productOperators : List (Kind × Op) :=
  [(.star, .times), (.slash, .divide)]

/-- All operators but member access. -/
def arithmetic : List Op :=
  (sumOperators ++ productOperators).map Prod.snd

/-! ## Expressions -/

mutual

inductive IsSum : List Lexeme → Exp → Prop
  | product {lexemes : List Lexeme} {exp : Exp} :
      IsProduct lexemes exp → IsSum lexemes exp
  | operator {left right : List Lexeme} {sign : Lexeme} {op : Op} {leftExp rightExp : Exp} :
      IsSum left leftExp → (sign.kind, op) ∈ sumOperators → IsProduct right rightExp →
      IsSum (left ++ sign :: right) (.binary leftExp op rightExp)

inductive IsProduct : List Lexeme → Exp → Prop
  | chain {lexemes : List Lexeme} {exp : Exp} :
      IsChain lexemes exp → IsProduct lexemes exp
  | operator {left right : List Lexeme} {sign : Lexeme} {op : Op} {leftExp rightExp : Exp} :
      IsProduct left leftExp → (sign.kind, op) ∈ productOperators → IsChain right rightExp →
      IsProduct (left ++ sign :: right) (.binary leftExp op rightExp)

/-- A primary expression with any number of steps `.name` and `.name(args)`. -/
inductive IsChain : List Lexeme → Exp → Prop
  | primary {lexemes : List Lexeme} {exp : Exp} :
      IsPrimary lexemes exp → IsChain lexemes exp
  | member {receiver : List Lexeme} {period name : Lexeme} {exp : Exp} :
      IsChain receiver exp → period.kind = .period → name.kind = .ident →
      IsChain (receiver ++ [period, name]) (.binary exp .member (.name name.text))
  | call {receiver args : List Lexeme} {period name : Lexeme} {exp : Exp} {exps : List Exp} :
      IsChain receiver exp → period.kind = .period → name.kind = .ident →
      IsArguments args exps →
      IsChain (receiver ++ period :: name :: args)
        (.binary exp .member (.call (.name name.text) exps))

inductive IsPrimary : List Lexeme → Exp → Prop
  | int {digits : Lexeme} {value : Nat} :
      digits.kind = .int → Text.readNat? digits.chars = some value → value < Text.signedLimit →
      IsPrimary [digits] (.int value)
  | trueWord {word : Lexeme} : word.kind = .trueWord → IsPrimary [word] (.bool true)
  | falseWord {word : Lexeme} : word.kind = .falseWord → IsPrimary [word] (.bool false)
  | this {word : Lexeme} : word.kind = .thisWord → IsPrimary [word] .this
  | name {name : Lexeme} : name.kind = .ident → IsPrimary [name] (.name name.text)
  | new {word name opening closing : Lexeme} :
      word.kind = .newWord → name.kind = .ident →
      opening.kind = .openParen → closing.kind = .closeParen →
      IsPrimary [word, name, opening, closing] (.new name.text)
  | parenthesized {opening closing : Lexeme} {inner : List Lexeme} {exp : Exp} :
      opening.kind = .openParen → IsSum inner exp → closing.kind = .closeParen →
      IsPrimary (opening :: inner ++ [closing]) exp
  | println {word opening closing : Lexeme} {inner : List Lexeme} {exp : Exp} :
      word.kind = .printlnWord → opening.kind = .openParen → IsSum inner exp →
      closing.kind = .closeParen →
      IsPrimary (word :: opening :: inner ++ [closing]) (.println exp)

inductive IsArguments : List Lexeme → List Exp → Prop
  | none {opening closing : Lexeme} :
      opening.kind = .openParen → closing.kind = .closeParen →
      IsArguments [opening, closing] []
  | some {opening closing : Lexeme} {inner : List Lexeme} {exps : List Exp} :
      opening.kind = .openParen → IsArgumentList inner exps → closing.kind = .closeParen →
      IsArguments (opening :: inner ++ [closing]) exps

/-- Expressions with commas between them; there is at least one. -/
inductive IsArgumentList : List Lexeme → List Exp → Prop
  | last {lexemes : List Lexeme} {exp : Exp} :
      IsSum lexemes exp → IsArgumentList lexemes [exp]
  | cons {lexemes others : List Lexeme} {comma : Lexeme} {exp : Exp} {exps : List Exp} :
      IsSum lexemes exp → comma.kind = .comma → IsArgumentList others exps →
      IsArgumentList (lexemes ++ comma :: others) (exp :: exps)

end

/-! ## Statements -/

inductive IsType : Lexeme → Ty → Prop
  | int {word : Lexeme} : word.kind = .intWord → IsType word .int
  | bool {word : Lexeme} : word.kind = .boolWord → IsType word .bool
  | void {word : Lexeme} : word.kind = .voidWord → IsType word .void
  | named {name : Lexeme} : name.kind = .ident → IsType name (.named name.text)

inductive IsTypedName : List Lexeme → VarDec → Prop
  | intro {type name : Lexeme} {ty : Ty} :
      IsType type ty → name.kind = .ident → IsTypedName [type, name] ⟨ty, name.text⟩

inductive IsDeclaration : List Lexeme → VarDec → Prop
  | intro {lexemes : List Lexeme} {semicolon : Lexeme} {dec : VarDec} :
      IsTypedName lexemes dec → semicolon.kind = .semicolon →
      IsDeclaration (lexemes ++ [semicolon]) dec

/-- What an assignment can assign to: a name, or a member access that ends in a
name. -/
inductive IsTarget : Exp → Prop
  | name (text : String) : IsTarget (.name text)
  | member (receiver : Exp) (text : String) : IsTarget (.binary receiver .member (.name text))

/-- The head of a loop or a branch: a word and a condition in parentheses. -/
inductive IsHead (kind : Kind) : List Lexeme → Exp → Prop
  | intro {word opening closing : Lexeme} {inner : List Lexeme} {cond : Exp} :
      word.kind = kind → opening.kind = .openParen → IsSum inner cond →
      closing.kind = .closeParen → IsHead kind (word :: opening :: inner ++ [closing]) cond

mutual

inductive IsStmt : List Lexeme → Stmt → Prop
  | declare {lexemes : List Lexeme} {dec : VarDec} :
      IsDeclaration lexemes dec → IsStmt lexemes (.declare dec)
  | expression {lexemes : List Lexeme} {semicolon : Lexeme} {exp : Exp} :
      IsSum lexemes exp → semicolon.kind = .semicolon →
      IsStmt (lexemes ++ [semicolon]) (.expression exp)
  | assign {left right : List Lexeme} {sign semicolon : Lexeme} {target value : Exp} :
      IsSum left target → IsTarget target → sign.kind = .equals → IsSum right value →
      semicolon.kind = .semicolon →
      IsStmt (left ++ sign :: right ++ [semicolon]) (.assign target value)
  | breakLoop {word semicolon : Lexeme} :
      word.kind = .breakWord → semicolon.kind = .semicolon →
      IsStmt [word, semicolon] .breakLoop
  | returnNone {word semicolon : Lexeme} :
      word.kind = .returnWord → semicolon.kind = .semicolon →
      IsStmt [word, semicolon] .returnNone
  | returnValue {word semicolon : Lexeme} {lexemes : List Lexeme} {value : Exp} :
      word.kind = .returnWord → IsSum lexemes value → semicolon.kind = .semicolon →
      IsStmt (word :: lexemes ++ [semicolon]) (.returnValue value)
  | block {opening closing : Lexeme} {inner : List Lexeme} {stmts : List Stmt} :
      opening.kind = .openBrace → IsStmts inner stmts → closing.kind = .closeBrace →
      IsStmt (opening :: inner ++ [closing]) (.block stmts)
  | whileLoop {head lexemes : List Lexeme} {cond : Exp} {body : Stmt} :
      IsHead .whileWord head cond → IsStmt lexemes body →
      IsStmt (head ++ lexemes) (.whileLoop cond body)
  | ifThen {head lexemes : List Lexeme} {cond : Exp} {yes : Stmt} :
      IsHead .ifWord head cond → IsStmt lexemes yes →
      IsStmt (head ++ lexemes) (.ifThen cond yes)
  /-- The `else` belongs to the nearest `if` before it that has none. -/
  | ifElse {head lexemes others : List Lexeme} {word : Lexeme} {cond : Exp} {yes no : Stmt} :
      IsHead .ifWord head cond → IsStmt lexemes yes → yes.endsOpen = false →
      word.kind = .elseWord → IsStmt others no →
      IsStmt (head ++ lexemes ++ word :: others) (.ifElse cond yes no)

inductive IsStmts : List Lexeme → List Stmt → Prop
  | nil : IsStmts [] []
  | cons {lexemes others : List Lexeme} {stmt : Stmt} {stmts : List Stmt} :
      IsStmt lexemes stmt → IsStmts others stmts → IsStmts (lexemes ++ others) (stmt :: stmts)

end

/-! ## Classes and programs -/

/-- Any number of constructs one after the other. -/
inductive IsSequence {α : Type} (IsItem : List Lexeme → α → Prop) :
    List Lexeme → List α → Prop
  | nil : IsSequence IsItem [] []
  | cons {lexemes others : List Lexeme} {item : α} {items : List α} :
      IsItem lexemes item → IsSequence IsItem others items →
      IsSequence IsItem (lexemes ++ others) (item :: items)

/-- Statements are a sequence like any other. -/
theorem isStmts_of_isSequence {lexemes : List Lexeme} {stmts : List Stmt}
    (hstmts : IsSequence IsStmt lexemes stmts) : IsStmts lexemes stmts := by
  induction hstmts with
  | nil => exact .nil
  | cons hstmt _ ih => exact .cons hstmt ih

theorem IsStmts.isSequence : ∀ {lexemes : List Lexeme} {stmts : List Stmt},
    IsStmts lexemes stmts → IsSequence IsStmt lexemes stmts
  | _, _, .nil => .nil
  | _, _, .cons hstmt hstmts => .cons hstmt hstmts.isSequence

/-- Parameters with commas between them; there is at least one. -/
inductive IsParameterList : List Lexeme → List VarDec → Prop
  | last {lexemes : List Lexeme} {param : VarDec} :
      IsTypedName lexemes param → IsParameterList lexemes [param]
  | cons {lexemes others : List Lexeme} {comma : Lexeme} {param : VarDec}
      {params : List VarDec} :
      IsTypedName lexemes param → comma.kind = .comma → IsParameterList others params →
      IsParameterList (lexemes ++ comma :: others) (param :: params)

inductive IsParameters : List Lexeme → List VarDec → Prop
  | none {opening closing : Lexeme} :
      opening.kind = .openParen → closing.kind = .closeParen →
      IsParameters [opening, closing] []
  | some {opening closing : Lexeme} {inner : List Lexeme} {params : List VarDec} :
      opening.kind = .openParen → IsParameterList inner params → closing.kind = .closeParen →
      IsParameters (opening :: inner ++ [closing]) params

/-- The optional call of the base class's constructor. -/
inductive IsSuperCall : List Lexeme → Option (List Exp) → Prop
  | none : IsSuperCall [] none
  | some {word semicolon : Lexeme} {lexemes : List Lexeme} {args : List Exp} :
      word.kind = .superWord → IsArguments lexemes args → semicolon.kind = .semicolon →
      IsSuperCall (word :: lexemes ++ [semicolon]) (some args)

/-- A constructor of a class with the given base.  Without a base, there is no
call of a base class's constructor. -/
inductive IsConstructor (base : Option String) : List Lexeme → Constructor → Prop
  | intro {word opening closing : Lexeme} {head start inner : List Lexeme}
      {params : List VarDec} {superArgs : Option (List Exp)} {body : List Stmt} :
      word.kind = .initWord → IsParameters head params → opening.kind = .openBrace →
      IsSuperCall start superArgs → (superArgs.isSome → base.isSome) → IsStmts inner body →
      closing.kind = .closeBrace →
      IsConstructor base (word :: head ++ opening :: start ++ inner ++ [closing])
        ⟨params, superArgs.isSome, superArgs.getD [], body⟩

inductive IsMethod : List Lexeme → Method → Prop
  | intro {word name type opening closing : Lexeme} {head inner : List Lexeme}
      {params : List VarDec} {returnType : Ty} {body : List Stmt} :
      word.kind = .methodWord → name.kind = .ident → IsParameters head params →
      IsType type returnType → opening.kind = .openBrace → IsStmts inner body →
      closing.kind = .closeBrace →
      IsMethod (word :: name :: head ++ type :: opening :: inner ++ [closing])
        ⟨name.text, returnType, params, body⟩

inductive IsExtends : List Lexeme → Option String → Prop
  | none : IsExtends [] none
  | some {word name : Lexeme} :
      word.kind = .extendsWord → name.kind = .ident → IsExtends [word, name] (some name.text)

inductive IsClass : List Lexeme → ClassDef → Prop
  | intro {word name opening closing : Lexeme}
      {extending declarations constructing defining : List Lexeme} {base : Option String}
      {fields : List VarDec} {init : Constructor} {methods : List Method} :
      word.kind = .classWord → name.kind = .ident → IsExtends extending base →
      opening.kind = .openBrace → IsSequence IsDeclaration declarations fields →
      IsConstructor base constructing init → IsSequence IsMethod defining methods →
      closing.kind = .closeBrace →
      IsClass
        (word :: name :: extending ++ opening :: declarations ++ constructing ++ defining
          ++ [closing])
        ⟨name.text, base, fields, init, methods⟩

inductive IsProgram : List Lexeme → Program → Prop
  | intro {defining lexemes others : List Lexeme} {classes : List ClassDef} {stmt : Stmt}
      {stmts : List Stmt} :
      IsSequence IsClass defining classes → IsStmt lexemes stmt → IsStmts others stmts →
      IsProgram (defining ++ lexemes ++ others) ⟨classes, stmt :: stmts⟩

end Grammar

end ClassLang
