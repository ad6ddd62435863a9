import ClassLang.Build.Unit
import ClassLang.Text.Utf8

/-!
# Source files

The sources of a module are the files in its directory with a given extension,
in the order of their names.
-/

namespace ClassLang.Workspace

/-- The paths of the source files in a directory, in order. -/
def sources (workspace : Workspace) (directory extension : String) :
    Except BuildError (List String) := do
  let names ← (workspace.fileNames directory).mapError BuildError.file
  let paths := (names.filter fun name => Path.extension name == extension).map fun name =>
    Path.join [directory, name]
  return paths.mergeSort fun left right => left ≤ right

/-- The contents of a file, which must have the given extension. -/
def readSource (workspace : Workspace) (path extension : String) :
    Except BuildError ByteArray :=
  if Path.extension path == extension then (workspace.readFile path).mapError BuildError.file
  else .error (.wrongExtension path extension)

end ClassLang.Workspace
