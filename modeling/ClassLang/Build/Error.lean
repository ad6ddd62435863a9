import ClassLang.Files.Workspace
import ClassLang.Manifest.Document
import ClassLang.Script.Statement
import ClassLang.SourceError

/-!
# What can go wrong in a build
-/

namespace ClassLang

inductive BuildError where
  | source (error : SourceError)
  | script (error : ScriptError)
  | file (error : FileError)
  | manifest (error : ManifestError)
  | manifestText (error : ManifestTextError)
  /-- A file that is to be read as a source has another extension. -/
  | wrongExtension (path extension : String)
  | noSources (extension directory : String)
  | unknownTarget (name : String)
  /-- A task was not begun, because another one had failed. -/
  | cancelled
  deriving DecidableEq

def BuildError.message : BuildError → String
  | .source error => error.message
  | .script error => error.message
  | .file error => error.message
  | .manifest error => error.message
  | .manifestText error => error.message
  | .wrongExtension path extension => path ++ " is not a " ++ extension ++ " source file"
  | .noSources extension directory => "no " ++ extension ++ " files in " ++ directory
  | .unknownTarget name => "unknown target " ++ Text.quote name ++ ", want es5 or es6"
  | .cancelled => "context canceled"

end ClassLang
