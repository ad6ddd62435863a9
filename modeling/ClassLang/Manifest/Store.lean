import ClassLang.Build.Step

/-!
# Manifests on file

The manifest of a module is in a file of a fixed name in the module's
directory.  It is checked when it is read and before it is written, so that no
file ever gets a manifest that cannot be used.
-/

namespace ClassLang

namespace Manifest

def path (directory : String) : String :=
  Path.join [directory, fileName]

end Manifest

namespace Workspace

def readManifest (workspace : Workspace) (directory : String) : Except BuildError Manifest := do
  let bytes ← (workspace.readFile (Manifest.path directory)).mapError BuildError.file
  let manifest ← (Manifest.ofBytes bytes).mapError BuildError.manifestText
  manifest.validate.mapError BuildError.manifest
  return manifest

/-- The manifest of a directory, or the fallback if there is no such file. -/
def manifestOrFallback (workspace : Workspace) (directory : String) :
    Except BuildError Manifest :=
  match workspace.readManifest directory with
  | .error (.file ⟨_, _, .notFound⟩) => .ok .fallback
  | outcome => outcome

def writeManifest (directory : String) (manifest : Manifest) : FileStep Unit := do
  FileStep.look fun _ => manifest.validate.mapError BuildError.manifest
  FileStep.write (Manifest.path directory) manifest.text.toUTF8

end Workspace

end ClassLang
