import ClassLang.Syntax.Source

/-!
# Outlines

The outline of a class shows its interface: its name and base, its fields, and
the signatures of its constructor and methods.  Bodies are left out; of a call
of the base class's constructor only the number of arguments is shown.
-/

namespace ClassLang

def Constructor.signature (init : Constructor) : String :=
  "init(" ++ VarDec.parameters init.params ++ ")"
    ++ (if init.callsSuper then " super(" ++ Text.decimal init.superArgs.length ++ ")" else "")
    ++ ";"

def Method.signature (method : Method) : String :=
  method.header ++ ";"

/-- The members of a class, as the outline shows them. -/
def ClassDef.signatures (classDef : ClassDef) : List String :=
  classDef.fields.map VarDec.source
    ++ classDef.init.signature :: classDef.methods.map Method.signature

def ClassDef.outline (classDef : ClassDef) : String :=
  classDef.header ++ "\n"
    ++ String.join (classDef.signatures.map fun signature => "\t" ++ signature ++ "\n")

end ClassLang
