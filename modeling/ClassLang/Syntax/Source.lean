import ClassLang.Syntax.Basic
import ClassLang.Text.Decimal
import ClassLang.Text.Layout

/-!
# Trees as source text

Every tree has a canonical text.  Arithmetic is written with all its
parentheses and member access with none; a block stands on one line, and a
program has a line for each class and for each statement.  A hole is written as
nothing.
-/

namespace ClassLang

def Ty.source : Ty → String
  | .missing => ""
  | .int => "int"
  | .bool => "bool"
  | .void => "void"
  | .named className => className

def Op.source : Op → String
  | .missing => ""
  | .plus => "+"
  | .minus => "-"
  | .times => "*"
  | .divide => "/"
  | .member => "."

mutual

def Exp.source : Exp → String
  | .missing => ""
  | .int value => Text.decimal value
  | .bool value => if value then "true" else "false"
  | .this => "this"
  | .name text => text
  | .println value => "println(" ++ value.source ++ ")"
  | .new className => "new " ++ className ++ "()"
  | .call callee args => callee.source ++ "(" ++ Text.commaSeparated (Exp.sources args) ++ ")"
  | .binary left .member right => left.source ++ "." ++ right.source
  | .binary left op right =>
    "(" ++ left.source ++ " " ++ op.source ++ " " ++ right.source ++ ")"

def Exp.sources : List Exp → List String
  | [] => []
  | exp :: exps => exp.source :: Exp.sources exps

end

/-- A typed name without its semicolon, as in a list of parameters. -/
def VarDec.typedName (dec : VarDec) : String :=
  dec.type.source ++ " " ++ dec.name

def VarDec.source (dec : VarDec) : String :=
  dec.typedName ++ ";"

/-- The inside of the parentheses of a constructor or a method. -/
def VarDec.parameters (params : List VarDec) : String :=
  Text.commaSeparated (params.map VarDec.typedName)

/-- Statements in braces, given as their texts.  Without any, the braces touch. -/
def bracedLine (texts : List String) : String :=
  if texts.isEmpty then "\x7b\x7d" else " ".intercalate ("\x7b" :: texts ++ ["\x7d"])

mutual

def Stmt.source : Stmt → String
  | .missing => ""
  | .declare dec => dec.source
  | .assign target value => target.source ++ " = " ++ value.source ++ ";"
  | .expression exp => exp.source ++ ";"
  | .whileLoop cond body => "while (" ++ cond.source ++ ") " ++ body.source
  | .breakLoop => "break;"
  | .returnNone => "return;"
  | .returnValue value => "return " ++ value.source ++ ";"
  | .ifThen cond yes => "if (" ++ cond.source ++ ") " ++ yes.source
  | .ifElse cond yes no =>
    "if (" ++ cond.source ++ ") " ++ yes.source ++ " else " ++ no.source
  | .block stmts => bracedLine (Stmt.sources stmts)

def Stmt.sources : List Stmt → List String
  | [] => []
  | stmt :: stmts => stmt.source :: Stmt.sources stmts

end

def Constructor.source (init : Constructor) : String :=
  let opening := "init(" ++ VarDec.parameters init.params ++ ") \x7b"
  let superCall :=
    if init.callsSuper then ["super(" ++ Text.commaSeparated (Exp.sources init.superArgs) ++ ");"]
    else []
  " ".intercalate (opening :: superCall ++ Stmt.sources init.body ++ ["\x7d"])

/-- The method up to its return type. -/
def Method.header (method : Method) : String :=
  "method " ++ method.name ++ "(" ++ VarDec.parameters method.params ++ ") "
    ++ method.returnType.source

def Method.source (method : Method) : String :=
  method.header ++ " " ++ bracedLine (Stmt.sources method.body)

/-- The name of a class and of its base. -/
def ClassDef.header (classDef : ClassDef) : String :=
  "class " ++ classDef.name
    ++ match classDef.base with
      | some base => " extends " ++ base
      | none => ""

def ClassDef.source (classDef : ClassDef) : String :=
  " ".intercalate
    (classDef.header :: "\x7b" :: classDef.fields.map VarDec.source
      ++ classDef.init.source :: classDef.methods.map Method.source ++ ["\x7d"])

def Program.source (program : Program) : String :=
  "\n".intercalate (program.classes.map ClassDef.source ++ Stmt.sources program.stmts)

end ClassLang
