import ClassLang.Command.Run

/-!
# The command line

What a command can see of the files on disk is read into a workspace: the
current directory and the paths among the arguments.  The command runs there,
and the files it changed are written back.
-/

namespace ClassLang

def placeOfPath (path : String) : Place :=
  (Path.names (Path.clean path)).filterMap Path.Name.ofText?

def pathOfPlace (place : Place) : String :=
  "/" ++ "/".intercalate (place.map Path.Name.text)

/-- The places on the way from the root to a place, with the place itself. -/
def waypoints (place : Place) : List Place :=
  (List.range place.length).map fun count => place.take (count + 1)

/-- Takes what stands at a place on disk into the tree, if it is not there
yet. -/
def loadPlace (tree : FileTree) (place : Place) : IO FileTree := do
  if (tree.find? place).isSome then return tree
  let path := (← IO.currentDir) / pathOfPlace place
  if ← path.isDir then return tree.set place .directory
  if ← path.pathExists then return tree.set place (.file (← IO.FS.readBinFile path))
  return tree

/-- The paths that an argument may name, alone or as the value of a flag. -/
def pathsInArgument (argument : String) : List String :=
  let value := (argument.toList.dropWhile (· != '=')).drop 1
  [argument, String.ofList value].filter fun path => !path.isEmpty

def loadWorkspace (arguments : List String) : IO Workspace := do
  let directory ← IO.currentDir
  let here := directory.toString
  let entries := (← directory.readDir).toList.map fun entry => entry.path.toString
  let named := (arguments.flatMap pathsInArgument).map fun path =>
    if Path.isAbsolute path then path else Path.join [here, path]
  let places := (entries ++ named).flatMap fun path => waypoints (placeOfPath path)
  let place := placeOfPath here
  let tree ← places.foldlM loadPlace (Workspace.empty place).tree
  return ⟨tree, place⟩

def storeChanges (before after : Workspace) : IO Unit :=
  (before.tree.changes after.tree).forM fun (place, contents) =>
    IO.FS.writeBinFile (pathOfPlace place) contents

def runOnDisk (arguments : List String) : IO Ending := do
  let before ← loadWorkspace arguments
  let outcome := before.runProgram arguments
  storeChanges before outcome.session.workspace
  IO.print outcome.output
  IO.eprint outcome.log
  return outcome.ending

/-- Whether the arguments ask to go on after the first build. -/
def isWatching (arguments : List String) (ending : Ending) : Bool :=
  match Command.ofArguments arguments, ending with
  | .ok (.watch _ _), .done => true
  | _, _ => false

/-- The sources of the module in the current directory, with their contents. -/
def Workspace.watched (workspace : Workspace) : List (String × Array UInt8) :=
  let sources := do
    let manifest ← workspace.readManifest "."
    let paths ← workspace.sources "." manifest.sourceExtension
    paths.mapM fun path => do
      let contents ← workspace.readSource path manifest.sourceExtension
      return (path, contents.data)
  match sources with
  | .ok sources => sources
  | .error _ => []

/-- The paths whose contents differ between two states of the sources. -/
def changedPaths (before after : List (String × Array UInt8)) : List String :=
  let paths := before.map Prod.fst ++ (after.map Prod.fst).filter fun path =>
    (before.lookup path).isNone
  paths.filter fun path => before.lookup path != after.lookup path

partial def watchOnDisk (arguments : List String) (before : List (String × Array UInt8)) :
    IO Unit := do
  IO.sleep 500
  let after := (← loadWorkspace arguments).watched
  let changed := changedPaths before after
  changed.forM fun path => IO.eprintln (path ++ " changed")
  if !changed.isEmpty then
    let _ ← runOnDisk arguments
  watchOnDisk arguments after

end ClassLang

def main (arguments : List String) : IO UInt32 := do
  let ending ← ClassLang.runOnDisk arguments
  if ClassLang.isWatching arguments ending then
    ClassLang.watchOnDisk arguments (← ClassLang.loadWorkspace arguments).watched
  return UInt32.ofNat ending.exitCode
