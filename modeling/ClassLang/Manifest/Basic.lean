import ClassLang.Manifest.Version

/-!
# Manifests

A module is a directory with a manifest, which gives the package its name and
version and says which extension the sources have.  The manifest is checked
before it is used or written; the first thing that is wrong with it is
reported.
-/

namespace ClassLang

structure Manifest where
  package : String
  version : String
  /-- Empty when the usual extension applies. -/
  extension : String
  deriving DecidableEq

inductive ManifestError where
  | noPackage
  | separatorInPackage (package : String)
  | badVersion (version : String) (error : VersionError)
  | extensionWithoutDot (extension : String)
  deriving DecidableEq

namespace Manifest

/-- The name of the file that holds a manifest. -/
def fileName : String := "Module Information"

def defaultExtension : String := ".cls"

def defaultVersion : String := "0.1.0"

/-- What is assumed where there is no manifest. -/
def fallback : Manifest :=
  ⟨"main", defaultVersion, ""⟩

/-- The extension of the sources. -/
def sourceExtension (manifest : Manifest) : String :=
  if manifest.extension.isEmpty then defaultExtension else manifest.extension

def isSeparator (c : Char) : Bool :=
  c == '/' || c == '\\'

def validate (manifest : Manifest) : Except ManifestError Unit := do
  if manifest.package.isEmpty then throw .noPackage
  if manifest.package.toList.any isSeparator then throw (.separatorInPackage manifest.package)
  match Version.parse manifest.version with
  | .error error => throw (.badVersion manifest.version error)
  | .ok _ => pure ()
  if manifest.sourceExtension.toList.head? != some '.' then
    throw (.extensionWithoutDot manifest.extension)

/-- The first line of every generated file.  A version that cannot be read is
left out. -/
def header (manifest : Manifest) : String :=
  let version := match Version.parse manifest.version with
    | .ok version => " v" ++ version.text
    | .error _ => ""
  "// Code generated by classjs from " ++ manifest.package ++ version ++ ". DO NOT EDIT.\n"

end Manifest

def ManifestError.message (error : ManifestError) : String :=
  Manifest.fileName ++ ": " ++
    match error with
    | .noPackage => "no package name"
    | .separatorInPackage package =>
      "package name " ++ Text.quote package ++ " contains a path separator"
    | .badVersion version error => "version " ++ Text.quote version ++ ": " ++ error.message
    | .extensionWithoutDot extension =>
      "extension " ++ Text.quote extension ++ " must start with a dot"

end ClassLang
