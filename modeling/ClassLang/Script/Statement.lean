import ClassLang.Syntax.Source

/-!
# Scripts for expressions and statements

Every node has one template, filled with the scripts of its children.  The
receiver of a member access is put in parentheses only when it is arithmetic,
and arithmetic keeps the grouping of the tree by parentheses around both
operands.  A tree with a hole in it has no script.
-/

namespace ClassLang

/-- The tree has a hole where a script was to be made. -/
inductive ScriptError where
  | missingNode
  deriving DecidableEq

def ScriptError.message : ScriptError → String
  | .missingNode => "unhandled AST node <nil>"

def Op.script : Op → Except ScriptError String
  | .missing => .error .missingNode
  | op => .ok op.source

/-- Whether a member can be selected from the script of an expression as it
stands. -/
def Exp.chains : Exp → Bool
  | .binary _ op _ => op == .member
  | _ => true

def parenthesized (script : String) : String :=
  "(" ++ script ++ ")"

mutual

def Exp.script : Exp → Except ScriptError String
  | .missing => .error .missingNode
  | .int value => .ok (Text.decimal value)
  | .bool value => .ok (if value then "true" else "false")
  | .this => .ok "this"
  | .name text => .ok text
  | .println value => do
    let script ← value.script
    return "console.log(" ++ script ++ ")"
  | .new className => .ok ("new " ++ className ++ "()")
  | .call callee args => do
    let calleeScript ← callee.script
    let argScripts ← Exp.scripts args
    return calleeScript ++ "(" ++ Text.commaSeparated argScripts ++ ")"
  | .binary left op right => do
    let opScript ← op.script
    let leftScript ← left.script
    let rightScript ← right.script
    if op = .member then
      return (if left.chains then leftScript else parenthesized leftScript)
        ++ opScript ++ rightScript
    else
      return parenthesized leftScript ++ " " ++ opScript ++ " " ++ parenthesized rightScript

def Exp.scripts : List Exp → Except ScriptError (List String)
  | [] => .ok []
  | exp :: exps => do
    let first ← exp.script
    let others ← Exp.scripts exps
    return first :: others

end

/-- One line of script at the given depth. -/
def scriptLine (depth : Nat) (script : String) : String :=
  Text.indentation depth ++ script ++ "\n"

/-- Statements in braces, where the opening brace stands in a line of the given
depth.  Without any, the braces touch. -/
def scriptBlock (depth : Nat) (scripts : List String) : String :=
  if scripts.isEmpty then "\x7b\x7d"
  else "\x7b\n" ++ String.join (scripts.map (scriptLine (depth + 1))) ++ Text.indentation depth
    ++ "\x7d"

def VarDec.script (dec : VarDec) : String :=
  "let " ++ dec.name ++ ";"

/-- A declaration cannot be the whole body of a loop or a branch, so it gets a
block of its own there. -/
def bodyScript (depth : Nat) (body : Stmt) (script : String) : String :=
  match body with
  | .declare _ => scriptBlock depth [script]
  | _ => script

mutual

/-- The script of a statement that starts in a line of the given depth, without
the indentation of that line. -/
def Stmt.script (depth : Nat) : Stmt → Except ScriptError String
  | .missing => .error .missingNode
  | .declare dec => .ok dec.script
  | .assign target value => do
    let targetScript ← target.script
    let valueScript ← value.script
    return targetScript ++ " = " ++ valueScript ++ ";"
  | .expression exp => do
    let script ← exp.script
    return script ++ ";"
  | .whileLoop cond body => do
    let condScript ← cond.script
    let script ← body.script depth
    return "while (" ++ condScript ++ ") " ++ bodyScript depth body script
  | .breakLoop => .ok "break;"
  | .returnNone => .ok "return;"
  | .returnValue value => do
    let script ← value.script
    return "return " ++ script ++ ";"
  | .ifThen cond yes => do
    let condScript ← cond.script
    let yesScript ← yes.script depth
    return "if (" ++ condScript ++ ") " ++ bodyScript depth yes yesScript
  | .ifElse cond yes no => do
    let condScript ← cond.script
    let yesScript ← yes.script depth
    let noScript ← no.script depth
    return "if (" ++ condScript ++ ") " ++ bodyScript depth yes yesScript
      ++ " else " ++ bodyScript depth no noScript
  | .block stmts => do
    let scripts ← Stmt.scripts (depth + 1) stmts
    return scriptBlock depth scripts

def Stmt.scripts (depth : Nat) : List Stmt → Except ScriptError (List String)
  | [] => .ok []
  | stmt :: stmts => do
    let first ← stmt.script depth
    let others ← Stmt.scripts depth stmts
    return first :: others

end

end ClassLang
