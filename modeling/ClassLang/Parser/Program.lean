import ClassLang.Parser.Statement

/-!
# Parsing classes and programs

A class holds fields, one constructor and methods, in this order.  A program is
a list of classes followed by at least one statement.
-/

namespace ClassLang

namespace Parser

/-- Parameters up to and including the closing parenthesis; there is at least
one. -/
def parameterList (stop : Span) (context : String) (tokens : List Token) :
    Except SourceError (Parsed (List VarDec) tokens) := do
  let ⟨param, after, hafter⟩ ← typedName stop context tokens
  let ⟨mark, afterMark, hmark⟩ ← expect stop context [.comma, .closeParen] after
  if mark.kind = .closeParen then
    return ⟨[param], afterMark, by omega⟩
  else
    let ⟨params, rest, hrest⟩ ← parameterList stop context afterMark
    return ⟨param :: params, rest, by omega⟩
termination_by tokens.length

/-- Parameters in parentheses, with commas between them. -/
def parameters (stop : Span) (context : String) (tokens : List Token) :
    Except SourceError (Parsed (List VarDec) tokens) := do
  let ⟨_, after, hafter⟩ ← expect stop context [.openParen] tokens
  match accept? .closeParen after with
  | some ⟨_, rest, hrest⟩ => return ⟨[], rest, by omega⟩
  | none =>
    let ⟨params, rest, hrest⟩ ← parameterList stop context after
    return ⟨params, rest, by omega⟩

/-- The call of the base class's constructor, if the body of a constructor
starts with one.  Only a class with a base may have it. -/
def superCall (stop : Span) (className : String) (base : Option String) (tokens : List Token) :
    Except SourceError (Continued (Option (List Exp)) tokens) :=
  match accept? .superWord tokens with
  | none => return ⟨none, tokens, notLonger_refl tokens⟩
  | some ⟨word, after, hafter⟩ =>
    match base with
    | none => throw (.superWithoutBase className word.span)
    | some _ => do
      let ⟨args, afterArgs, hargs⟩ ← arguments stop "super call" after
      have hcall := shorter_trans hargs hafter
      let ⟨_, rest, hrest⟩ ← expect stop "super call" [.semicolon] afterArgs
      have hshorter := shorter_trans hrest hcall
      return ⟨some args, rest, notLonger_of_shorter hshorter⟩

/-- The constructor of the class with the given name and base. -/
def constructor (stop : Span) (className : String) (base : Option String) (tokens : List Token) :
    Except SourceError (Parsed Constructor tokens) := do
  let ⟨_, afterInit, hinit⟩ ← expect stop "constructor" [.initWord] tokens
  let ⟨params, afterParams, hparams⟩ ← parameters stop "constructor parameters" afterInit
  let ⟨_, afterOpen, hopen⟩ ← expect stop "constructor body" [.openBrace] afterParams
  let ⟨call, afterCall, hcall⟩ ← superCall stop className base afterOpen
  let ⟨body, rest, hrest⟩ ← statements stop "constructor body" afterCall
  return ⟨⟨params, call.isSome, call.getD [], body⟩, rest, by omega⟩

def method (stop : Span) (tokens : List Token) : Except SourceError (Parsed Method tokens) := do
  let ⟨_, afterWord, hword⟩ ← expect stop "method definition" [.methodWord] tokens
  let ⟨name, afterName, hname⟩ ← expect stop "method definition" [.ident] afterWord
  have htitle := shorter_trans hname hword
  let ⟨params, afterParams, hparams⟩ ← parameters stop "method parameters" afterName
  let ⟨returnType, afterType, htype⟩ ← type stop afterParams
  have hsignature := shorter_trans htype hparams
  have hhead := shorter_trans hsignature htitle
  let ⟨body, rest, hrest⟩ ← block stop afterType
  return ⟨⟨name.lexeme, returnType, params, body⟩, rest, shorter_trans hrest hhead⟩

def fields (stop : Span) (tokens : List Token) :
    Except SourceError (Continued (List VarDec) tokens) :=
  if startsDeclaration tokens then do
    let ⟨dec, after, hafter⟩ ← declaration stop "field declaration" tokens
    let ⟨decs, rest, hrest⟩ ← fields stop after
    return ⟨dec :: decs, rest, by omega⟩
  else return ⟨[], tokens, Nat.le_refl _⟩
termination_by tokens.length

def methods (stop : Span) (tokens : List Token) :
    Except SourceError (Continued (List Method) tokens) :=
  if peek tokens = .methodWord then do
    let ⟨first, after, hafter⟩ ← method stop tokens
    let ⟨others, rest, hrest⟩ ← methods stop after
    return ⟨first :: others, rest, by omega⟩
  else return ⟨[], tokens, Nat.le_refl _⟩
termination_by tokens.length

/-- The base class, if one is named.  An empty name names none. -/
def extendsClause (stop : Span) (tokens : List Token) :
    Except SourceError (Continued (Option String) tokens) :=
  match accept? .extendsWord tokens with
  | none => return ⟨none, tokens, Nat.le_refl _⟩
  | some ⟨_, after, hafter⟩ => do
    let ⟨base, rest, hrest⟩ ← expect stop "extends clause" [.ident] after
    return ⟨if base.lexeme.isEmpty then none else some base.lexeme, rest, by omega⟩

def classDef (stop : Span) (tokens : List Token) :
    Except SourceError (Parsed ClassDef tokens) := do
  let ⟨_, afterWord, hword⟩ ← expect stop "class definition" [.classWord] tokens
  let ⟨name, afterName, hname⟩ ← expect stop "class definition" [.ident] afterWord
  let ⟨base, afterBase, hbase⟩ ← extendsClause stop afterName
  let ⟨_, afterOpen, hopen⟩ ← expect stop "class body" [.openBrace] afterBase
  let ⟨fields, afterFields, hfields⟩ ← fields stop afterOpen
  let ⟨init, afterInit, hinit⟩ ← constructor stop name.lexeme base afterFields
  let ⟨methods, afterMethods, hmethods⟩ ← methods stop afterInit
  let ⟨_, rest, hrest⟩ ← expect stop "class body" [.closeBrace] afterMethods
  return ⟨⟨name.lexeme, base, fields, init, methods⟩, rest, by omega⟩

def classes (stop : Span) (tokens : List Token) :
    Except SourceError (Continued (List ClassDef) tokens) :=
  if peek tokens = .classWord then do
    let ⟨first, after, hafter⟩ ← classDef stop tokens
    let ⟨others, rest, hrest⟩ ← classes stop after
    return ⟨first :: others, rest, by omega⟩
  else return ⟨[], tokens, Nat.le_refl _⟩
termination_by tokens.length

/-- The statements up to the end, which is left to be read. -/
def finalStatements (stop : Span) (tokens : List Token) :
    Except SourceError (Continued (List Stmt) tokens) :=
  if peek tokens = .eof then return ⟨[], tokens, Nat.le_refl _⟩
  else do
    let ⟨stmt, after, hafter⟩ ← statement stop tokens
    let ⟨stmts, rest, hrest⟩ ← finalStatements stop after
    return ⟨stmt :: stmts, rest, by omega⟩
termination_by tokens.length

def program (stop : Span) (tokens : List Token) :
    Except SourceError (Parsed Program tokens) := do
  let ⟨classes, afterClasses, hclasses⟩ ← classes stop tokens
  if peek afterClasses = .eof then
    throw (.missingStatement (peekSpan stop afterClasses))
  else
    let ⟨stmt, after, hafter⟩ ← statement stop afterClasses
    let ⟨stmts, rest, hrest⟩ ← finalStatements stop after
    return ⟨⟨classes, stmt :: stmts⟩, rest, by omega⟩

end Parser

end ClassLang
