/-!
# Syntax trees

The trees of the class language.  A tree may have holes: `missing` stands where
a type, an operator, an expression or a statement should be and is not.  The
parser never leaves one; trees put together by other means may have them, and
printing and script generation say what they do about it.
-/

namespace ClassLang

inductive Ty where
  | missing
  | int
  | bool
  | void
  /-- The type of the instances of a class. -/
  | named (className : String)
  deriving DecidableEq

inductive Op where
  | missing
  | plus
  | minus
  | times
  | divide
  /-- Member access: the receiver on the left, the member on the right. -/
  | member
  deriving DecidableEq

inductive Exp where
  | missing
  | int (value : Int)
  | bool (value : Bool)
  | this
  | name (text : String)
  | println (value : Exp)
  | new (className : String)
  | call (callee : Exp) (args : List Exp)
  | binary (left : Exp) (op : Op) (right : Exp)
  deriving Inhabited

/-- A typed name: a field, a parameter or a variable. -/
structure VarDec where
  type : Ty
  name : String
  deriving DecidableEq

inductive Stmt where
  | missing
  | declare (dec : VarDec)
  | assign (target value : Exp)
  | expression (exp : Exp)
  | whileLoop (cond : Exp) (body : Stmt)
  | breakLoop
  | returnNone
  | returnValue (value : Exp)
  | ifThen (cond : Exp) (yes : Stmt)
  | ifElse (cond : Exp) (yes no : Stmt)
  | block (stmts : List Stmt)
  deriving Inhabited

/-!
## Equality

Trees are compared node by node, and two trees are equal exactly when the
comparison says so.
-/

mutual

def Exp.same : Exp → Exp → Bool
  | .missing, .missing => true
  | .int left, .int right => left == right
  | .bool left, .bool right => left == right
  | .this, .this => true
  | .name left, .name right => left == right
  | .println left, .println right => left.same right
  | .new left, .new right => left == right
  | .call left leftArgs, .call right rightArgs =>
    left.same right && Exp.sameAll leftArgs rightArgs
  | .binary left op right, .binary left' op' right' =>
    left.same left' && op == op' && right.same right'
  | _, _ => false

def Exp.sameAll : List Exp → List Exp → Bool
  | [], [] => true
  | left :: lefts, right :: rights => left.same right && Exp.sameAll lefts rights
  | _, _ => false

end

mutual

theorem Exp.same_iff : (left right : Exp) → (left.same right = true ↔ left = right)
  | .missing, right => by cases right <;> simp [Exp.same]
  | .int _, right => by cases right <;> simp [Exp.same]
  | .bool _, right => by cases right <;> simp [Exp.same]
  | .this, right => by cases right <;> simp [Exp.same]
  | .name _, right => by cases right <;> simp [Exp.same]
  | .println value, right => by
    cases right <;> simp [Exp.same, Exp.same_iff value]
  | .new _, right => by cases right <;> simp [Exp.same]
  | .call callee args, right => by
    cases right <;> simp [Exp.same, Exp.same_iff callee, Exp.sameAll_iff args]
  | .binary left op right, other => by
    cases other <;> simp [Exp.same, Exp.same_iff left, Exp.same_iff right, and_assoc]

theorem Exp.sameAll_iff :
    (lefts rights : List Exp) → (Exp.sameAll lefts rights = true ↔ lefts = rights)
  | [], rights => by cases rights <;> simp [Exp.sameAll]
  | left :: lefts, rights => by
    cases rights <;> simp [Exp.sameAll, Exp.same_iff left, Exp.sameAll_iff lefts]

end

instance : DecidableEq Exp := fun left right =>
  decidable_of_iff _ (Exp.same_iff left right)

mutual

def Stmt.same : Stmt → Stmt → Bool
  | .missing, .missing => true
  | .declare left, .declare right => left == right
  | .assign left value, .assign left' value' => left == left' && value == value'
  | .expression left, .expression right => left == right
  | .whileLoop cond body, .whileLoop cond' body' => cond == cond' && body.same body'
  | .breakLoop, .breakLoop => true
  | .returnNone, .returnNone => true
  | .returnValue left, .returnValue right => left == right
  | .ifThen cond yes, .ifThen cond' yes' => cond == cond' && yes.same yes'
  | .ifElse cond yes no, .ifElse cond' yes' no' =>
    cond == cond' && yes.same yes' && no.same no'
  | .block left, .block right => Stmt.sameAll left right
  | _, _ => false

def Stmt.sameAll : List Stmt → List Stmt → Bool
  | [], [] => true
  | left :: lefts, right :: rights => left.same right && Stmt.sameAll lefts rights
  | _, _ => false

end

mutual

theorem Stmt.same_iff : (left right : Stmt) → (left.same right = true ↔ left = right)
  | .missing, right => by cases right <;> simp [Stmt.same]
  | .declare _, right => by cases right <;> simp [Stmt.same]
  | .assign _ _, right => by cases right <;> simp [Stmt.same]
  | .expression _, right => by cases right <;> simp [Stmt.same]
  | .whileLoop _ body, right => by
    cases right <;> simp [Stmt.same, Stmt.same_iff body]
  | .breakLoop, right => by cases right <;> simp [Stmt.same]
  | .returnNone, right => by cases right <;> simp [Stmt.same]
  | .returnValue _, right => by cases right <;> simp [Stmt.same]
  | .ifThen _ yes, right => by
    cases right <;> simp [Stmt.same, Stmt.same_iff yes]
  | .ifElse _ yes no, right => by
    cases right <;> simp [Stmt.same, Stmt.same_iff yes, Stmt.same_iff no, and_assoc]
  | .block stmts, right => by
    cases right <;> simp [Stmt.same, Stmt.sameAll_iff stmts]

theorem Stmt.sameAll_iff :
    (lefts rights : List Stmt) → (Stmt.sameAll lefts rights = true ↔ lefts = rights)
  | [], rights => by cases rights <;> simp [Stmt.sameAll]
  | left :: lefts, rights => by
    cases rights <;> simp [Stmt.sameAll, Stmt.same_iff left, Stmt.sameAll_iff lefts]

end

instance : DecidableEq Stmt := fun left right =>
  decidable_of_iff _ (Stmt.same_iff left right)

/-- How an instance is made.  The call of the base class's constructor comes
first and is kept apart from the body. -/
structure Constructor where
  params : List VarDec
  callsSuper : Bool
  superArgs : List Exp
  body : List Stmt
  deriving DecidableEq

structure Method where
  name : String
  returnType : Ty
  params : List VarDec
  body : List Stmt
  deriving DecidableEq

structure ClassDef where
  name : String
  /-- The class that this one extends. -/
  base : Option String
  fields : List VarDec
  init : Constructor
  methods : List Method
  deriving DecidableEq

structure Program where
  classes : List ClassDef
  stmts : List Stmt
  deriving DecidableEq

end ClassLang
