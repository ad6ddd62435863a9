import ClassLang.Script.Statement

/-!
# Scripts for classes and programs

There are two targets, which differ in what becomes of a class.  For `es5` a
class is a constructor function with its methods on the prototype, and a base
class is linked prototype to prototype.  For `es6` it is a class declaration.
Statements are the same for both.
-/

namespace ClassLang

inductive Target where
  | es5
  | es6
  deriving DecidableEq

def Target.ofName? : String → Option Target
  | "es5" => some .es5
  | "es6" => some .es6
  | _ => none

def VarDec.names (params : List VarDec) : String :=
  Text.commaSeparated (params.map VarDec.name)

/-- The arguments for the base class's constructor, if it is called. -/
def Constructor.superScripts (init : Constructor) : Except ScriptError (List String) :=
  if init.callsSuper then Exp.scripts init.superArgs else .ok []

/-- Fields are declared first, then comes the body. -/
def ClassDef.initLines (classDef : ClassDef) (depth : Nat) : Except ScriptError String := do
  let body ← Stmt.scripts depth classDef.init.body
  return String.join
    ((classDef.fields.map VarDec.script ++ body).map (scriptLine depth))

/-- The class as a constructor function. -/
def ClassDef.functionScript (classDef : ClassDef) : Except ScriptError String := do
  let base := classDef.base.getD ""
  let superArgs ← classDef.init.superScripts
  let initLines ← classDef.initLines 1
  let methods ← classDef.methods.mapM fun method => do
    let body ← Stmt.scripts 1 method.body
    return classDef.name ++ ".prototype." ++ method.name ++ " = function("
      ++ VarDec.names method.params ++ ") " ++ scriptBlock 0 body ++ ";\n"
  return "function " ++ classDef.name ++ "(" ++ VarDec.names classDef.init.params ++ ") \x7b\n"
    ++ (if classDef.init.callsSuper then
          scriptLine 1 (base ++ ".call(" ++ Text.commaSeparated ("this" :: superArgs) ++ ");")
        else "")
    ++ initLines ++ "\x7d\n"
    ++ (if classDef.base.isSome then
          "Object.setPrototypeOf(" ++ classDef.name ++ ".prototype, " ++ base ++ ".prototype);\n"
        else "")
    ++ String.join methods

/-- The class as a class declaration. -/
def ClassDef.declarationScript (classDef : ClassDef) : Except ScriptError String := do
  let superArgs ← classDef.init.superScripts
  let initLines ← classDef.initLines 2
  let methods ← classDef.methods.mapM fun method => do
    let body ← Stmt.scripts 2 method.body
    return scriptLine 1
      (method.name ++ "(" ++ VarDec.names method.params ++ ") " ++ scriptBlock 1 body)
  return classDef.header ++ " \x7b\n"
    ++ scriptLine 1 ("constructor(" ++ VarDec.names classDef.init.params ++ ") \x7b")
    ++ (if classDef.init.callsSuper then
          scriptLine 2 ("super(" ++ Text.commaSeparated superArgs ++ ");")
        else "")
    ++ initLines ++ scriptLine 1 "\x7d"
    ++ String.join methods ++ "\x7d\n"

def ClassDef.script (target : Target) (classDef : ClassDef) : Except ScriptError String :=
  match target with
  | .es5 => classDef.functionScript
  | .es6 => classDef.declarationScript

/-- The classes, with an empty line after each, and then the statements. -/
def Program.script (target : Target) (program : Program) : Except ScriptError String := do
  let classes ← program.classes.mapM (ClassDef.script target)
  let stmts ← Stmt.scripts 0 program.stmts
  return String.join (classes.map (· ++ "\n")) ++ String.join (stmts.map (· ++ "\n"))

end ClassLang
