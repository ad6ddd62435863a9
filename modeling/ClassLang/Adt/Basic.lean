/-!
# Declarations of data types

A declaration gives a name to another type, to a sum of cases or to a record.
A case carries nothing, a value of some type, or the members of a record.
-/

namespace ClassLang.Adt

structure TypeRef where
  isSlice : Bool
  isPointer : Bool
  name : String
  deriving DecidableEq

structure Member where
  name : String
  type : TypeRef
  deriving DecidableEq

inductive Payload where
  | value (type : TypeRef)
  /-- A case that carries nothing is a record without members. -/
  | record (members : List Member)
  deriving DecidableEq

structure Case where
  name : String
  payload : Payload
  deriving DecidableEq

inductive Body where
  | synonym (type : TypeRef)
  | sum (cases : List Case)
  | record (members : List Member)
  deriving DecidableEq

structure Declaration where
  name : String
  body : Body
  deriving DecidableEq

def Declaration.isSum (declaration : Declaration) : Bool :=
  match declaration.body with
  | .sum _ => true
  | _ => false

/-- Whether a sum is declared under a name, anywhere among the declarations. -/
def isSumName (declarations : List Declaration) (name : String) : Bool :=
  declarations.any fun declaration => declaration.name == name && declaration.isSum

end ClassLang.Adt
