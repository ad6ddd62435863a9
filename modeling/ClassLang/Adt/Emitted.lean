import ClassLang.Adt.Basic

/-!
# Go declarations for data types

A sum becomes an interface with a marker method, and each of its cases a type
that has the method.  A case that carries a value of a sum embeds it, since an
interface cannot have methods added; it does not matter where that sum is
declared.
-/

namespace ClassLang.Adt

inductive Emitted where
  | synonym (name : String) (type : TypeRef)
  | record (name : String) (members : List Member)
  /-- A struct with nothing in it but the embedded type. -/
  | embedding (name embedded : String)
  /-- The interface of a sum. -/
  | union (name : String)
  /-- The marker method that makes a case belong to a sum. -/
  | marker (caseName sumName : String)
  deriving DecidableEq

/-- The type of a case. -/
def Case.emit (declarations : List Declaration) (item : Case) : Emitted :=
  match item.payload with
  | .value type =>
    if !type.isSlice && !type.isPointer && isSumName declarations type.name then
      .embedding item.name type.name
    else .synonym item.name type
  | .record members => .record item.name members

/-- What a declaration becomes among others. -/
def Declaration.emit (declarations : List Declaration) (declaration : Declaration) :
    List Emitted :=
  match declaration.body with
  | .synonym type => [.synonym declaration.name type]
  | .record members => [.record declaration.name members]
  | .sum cases =>
    .union declaration.name :: cases.flatMap fun item =>
      [item.emit declarations, .marker item.name declaration.name]

def emitAll (declarations : List Declaration) : List Emitted :=
  declarations.flatMap (Declaration.emit declarations)

/-! ## Text -/

def TypeRef.text (type : TypeRef) : String :=
  (if type.isSlice then "[]" else "") ++ (if type.isPointer then "*" else "") ++ type.name

/-- The members on a line each, with the types one below the other. -/
def memberLines (members : List Member) : List String :=
  let width := (members.map fun member => member.name.length).foldl max 0
  members.map fun member =>
    member.name ++ String.ofList (List.replicate (width - member.name.length + 1) ' ')
      ++ member.type.text

/-- A keyword and lines in braces. -/
def bracedLines (keyword : String) (lines : List String) : String :=
  keyword ++ " \x7b\n" ++ String.join (lines.map fun line => "\t" ++ line ++ "\n") ++ "\x7d"

def markerName (sumName : String) : String :=
  "is_" ++ sumName ++ "()"

def Emitted.text : Emitted → String
  | .synonym name type => "type " ++ name ++ " " ++ type.text ++ "\n"
  | .record name [] => "type " ++ name ++ " struct\x7b\x7d\n"
  | .record name members =>
    "type " ++ name ++ " " ++ bracedLines "struct" (memberLines members) ++ "\n"
  | .embedding name embedded =>
    "type " ++ name ++ " " ++ bracedLines "struct" [embedded] ++ "\n"
  | .union name => "type " ++ name ++ " " ++ bracedLines "interface" [markerName name] ++ "\n"
  | .marker caseName sumName =>
    "func (v " ++ caseName ++ ") " ++ markerName sumName ++ " \x7b\x7d\n"

def Emitted.isMarker : Emitted → Bool
  | .marker _ _ => true
  | _ => false

/-- The declarations after a given one.  Types follow one another directly, and
an empty line stands before and after every method. -/
def textAfter (previous : Emitted) : List Emitted → String
  | [] => ""
  | next :: rest =>
    (if previous.isMarker || next.isMarker then "\n" else "") ++ next.text ++ textAfter next rest

def bodyText : List Emitted → String
  | [] => ""
  | first :: rest => "\n" ++ first.text ++ textAfter first rest

/-- The whole file for a package. -/
def fileText (package : String) (declarations : List Declaration) : String :=
  "// Code generated by adtgen. DO NOT EDIT.\n\npackage " ++ package ++ "\n"
    ++ bodyText (emitAll declarations)

end ClassLang.Adt
