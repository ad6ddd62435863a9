import ClassLang.Build.Error
import ClassLang.Parser.Indexed
import ClassLang.Script.Program

/-!
# Compiled units

Each source file becomes a unit: the program in it and the script for the
program.
-/

namespace ClassLang

def Target.named (name : String) : Except BuildError Target :=
  match Target.ofName? name with
  | some target => .ok target
  | none => .error (.unknownTarget name)

/-- A script and the name of the file it was made from. -/
structure UnitScript where
  name : String
  script : String
  deriving DecidableEq

structure CompiledUnit extends UnitScript where
  program : Program
  deriving DecidableEq

/-- The unit for a source.  Its name is also the file name in positions. -/
def CompiledUnit.ofSource (target : Target) (name source : String) :
    Except BuildError CompiledUnit := do
  let program ← (Program.ofSource source name).mapError BuildError.source
  let script ← (program.script target).mapError BuildError.script
  return ⟨⟨name, script⟩, program⟩

end ClassLang
