import ClassLang.Syntax.Basic
import ClassLang.Text.Decimal
import ClassLang.Text.Layout
import ClassLang.Text.Quoted

/-!
# Tree listings

A listing shows a tree node by node, each field on a line of its own and
indented by its depth.  Fields without content are left out.  A node is
labelled with the name of its type, and texts are quoted.
-/

namespace ClassLang

/-- What a listing shows, before it is laid out. -/
inductive Listing where
  /-- Nothing: left out as a field. -/
  | empty
  /-- A value that fits in its line. -/
  | inline (text : String)
  /-- A node whose type has no fields. -/
  | leaf (label : String)
  | node (label : String) (fields : List (String × Listing))
  | items (label : String) (values : List Listing)

namespace Listing

def isEmpty : Listing → Bool
  | empty => true
  | _ => false

mutual

/-- The text of a listing that starts in a line of the given depth. -/
def render (depth : Nat) : Listing → String
  | empty => "nil"
  | inline text => text
  | leaf label => label ++ "\x7b" ++ Text.indentation depth ++ "\x7d"
  | node label fields =>
    label ++ "\x7b\n" ++ renderFields (depth + 1) fields ++ Text.indentation depth ++ "\x7d"
  | items label values =>
    label ++ "\x7b\n" ++ renderItems (depth + 1) values ++ Text.indentation depth ++ "\x7d"

def renderFields (depth : Nat) : List (String × Listing) → String
  | [] => ""
  | (name, value) :: fields =>
    (if value.isEmpty then ""
      else Text.indentation depth ++ name ++ ": " ++ render depth value ++ ",\n")
      ++ renderFields depth fields

def renderItems (depth : Nat) : List Listing → String
  | [] => ""
  | value :: values =>
    Text.indentation depth ++ render depth value ++ ",\n" ++ renderItems depth values

end

/-- A list of nodes, which is without content when it has no members. -/
def ofItems (label : String) (values : List Listing) : Listing :=
  if values.isEmpty then empty else items label values

def ofString (text : String) : Listing :=
  if text.isEmpty then empty else inline (Text.quote text)

def ofBool (value : Bool) : Listing :=
  if value then inline "true" else empty

end Listing

def Ty.listing : Ty → Listing
  | .missing => .empty
  | .int => .leaf "ast.Int"
  | .bool => .leaf "ast.Bool"
  | .void => .leaf "ast.Void"
  | .named className => .inline ("ast.ClassName(" ++ Text.quote className ++ ")")

def Op.listing : Op → Listing
  | .missing => .empty
  | .plus => .leaf "ast.Plus"
  | .minus => .leaf "ast.Minus"
  | .times => .leaf "ast.Mult"
  | .divide => .leaf "ast.Div"
  | .member => .leaf "ast.Period"

mutual

def Exp.listing : Exp → Listing
  | .missing => .empty
  | .int value => .inline ("ast.IntegerLiteral(" ++ Text.decimal value ++ ")")
  | .bool value => .leaf (if value then "ast.True" else "ast.False")
  | .this => .leaf "ast.This"
  | .name text => .inline ("ast.Identifier(" ++ Text.quote text ++ ")")
  | .println value => .node "ast.Println" [("Inner", value.listing)]
  | .new className => .node "ast.New" [("ClassName", .ofString className)]
  | .call callee args =>
    .node "ast.MethodCall"
      [("Callee", callee.listing), ("Args", .ofItems "[]ast.Exp" (Exp.listings args))]
  | .binary left op right =>
    .node "ast.Binop" [("Left", left.listing), ("Op", op.listing), ("Right", right.listing)]

def Exp.listings : List Exp → List Listing
  | [] => []
  | exp :: exps => exp.listing :: Exp.listings exps

end

def VarDec.listingFields (dec : VarDec) : List (String × Listing) :=
  [("Type", dec.type.listing), ("Name", .ofString dec.name)]

/-- Declarations in a list of their own, where their type is not repeated. -/
def VarDec.listings (decs : List VarDec) : Listing :=
  .ofItems "[]ast.VarDec" (decs.map fun dec => .node "" dec.listingFields)

mutual

/-- The listing of a statement.  A block without statements is shown as `nil`
and is not left out. -/
def Stmt.listing : Stmt → Listing
  | .missing => .empty
  | .declare dec => .node "ast.VarDec" dec.listingFields
  | .assign target value =>
    .node "ast.Assignment" [("Target", target.listing), ("Value", value.listing)]
  | .expression exp => .node "ast.ExpStmt" [("Exp", exp.listing)]
  | .whileLoop cond body =>
    .node "ast.While" [("Cond", cond.listing), ("Body", body.listing)]
  | .breakLoop => .leaf "ast.Break"
  | .returnNone => .node "ast.Return" []
  | .returnValue value => .node "ast.Return" [("Value", value.listing)]
  | .ifThen cond yes => .node "ast.If" [("Cond", cond.listing), ("Then", yes.listing)]
  | .ifElse cond yes no =>
    .node "ast.If" [("Cond", cond.listing), ("Then", yes.listing), ("Else", no.listing)]
  | .block [] => .inline "nil"
  | .block (stmt :: stmts) => .items "ast.Block" (stmt.listing :: Stmt.listings stmts)

def Stmt.listings : List Stmt → List Listing
  | [] => []
  | stmt :: stmts => stmt.listing :: Stmt.listings stmts

end

/-- The body of a constructor or a method, which is left out when it is empty. -/
def Stmt.bodyListing (body : List Stmt) : Listing :=
  .ofItems "ast.Block" (Stmt.listings body)

def Constructor.listing (init : Constructor) : Listing :=
  .node "ast.Constructor"
    [("Params", VarDec.listings init.params),
     ("CallsSuper", .ofBool init.callsSuper),
     ("SuperArgs", .ofItems "[]ast.Exp" (Exp.listings init.superArgs)),
     ("Body", Stmt.bodyListing init.body)]

def Method.listing (method : Method) : Listing :=
  .node ""
    [("Name", .ofString method.name),
     ("ReturnType", method.returnType.listing),
     ("Params", VarDec.listings method.params),
     ("Body", Stmt.bodyListing method.body)]

def ClassDef.listing (classDef : ClassDef) : Listing :=
  .node ""
    [("Name", .ofString classDef.name),
     ("Extends", .ofString (classDef.base.getD "")),
     ("Fields", VarDec.listings classDef.fields),
     ("Constructor", classDef.init.listing),
     ("Methods", .ofItems "[]ast.MethodDef" (classDef.methods.map Method.listing))]

def Program.listing (program : Program) : Listing :=
  .node "ast.Program"
    [("Classes", .ofItems "[]ast.ClassDef" (program.classes.map ClassDef.listing)),
     ("Stmts", .ofItems "[]ast.Stmt" (Stmt.listings program.stmts))]

end ClassLang
