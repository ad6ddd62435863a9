import ClassLang.Build.Step
import ClassLang.Build.Tasks

/-!
# Output of a build

All units of a module are linked to one script, which is written to a file with
the extension `.js`.
-/

namespace ClassLang

/-- A unit in the linked script, after a line with its name. -/
def UnitScript.linked (unit : UnitScript) : String :=
  "\n// " ++ unit.name ++ "\n" ++ unit.script

namespace Manifest

/-- The header and the units one after the other. -/
def link (manifest : Manifest) (units : List UnitScript) : String :=
  manifest.header ++ String.join (units.map UnitScript.linked)

def scriptExtension : String := ".js"

def withScriptExtension (path : String) : String :=
  if Path.extension path == scriptExtension then path else path ++ scriptExtension

/-- Where the linked script goes: to the file that was asked for, or else to one
with the name of the package. -/
def outputPath (manifest : Manifest) (directory requested : String) : String :=
  let file := withScriptExtension (if requested.isEmpty then manifest.package else requested)
  if Path.isAbsolute file then file else Path.join [directory, file]

end Manifest

namespace Workspace

/-- The units of a module. -/
def compileDirectory (workspace : Workspace) (target : Target) (directory : String)
    (manifest : Manifest) : Except BuildError (List CompiledUnit) := do
  let paths ← workspace.sources directory manifest.sourceExtension
  if paths.isEmpty then throw (.noSources manifest.sourceExtension directory)
  workspace.compileFiles target manifest.sourceExtension paths

/-- Compile a module and write its script.  The path to the script is returned. -/
def build (target : Target) (directory requested : String) (manifest : Manifest) :
    FileStep String := do
  let units ← FileStep.look (·.compileDirectory target directory manifest)
  let path := manifest.outputPath directory requested
  let script := manifest.link (units.map CompiledUnit.toUnitScript)
  FileStep.write path script.toUTF8
  return path

end Workspace

end ClassLang
