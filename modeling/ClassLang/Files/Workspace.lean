import ClassLang.Files.Path
import ClassLang.Files.Tree

/-!
# Workspaces

A workspace is a file tree and the directory in which the program runs.  A path
is followed name by name: every name but the last must lead to a directory, and
`..` leads to the directory above.  Reading, writing and listing fail as an
operating system makes them fail, with the path as it was given.  A path with a
zero character is refused before it is followed.
-/

namespace ClassLang

inductive FileProblem where
  | notFound
  | isDirectory
  | notDirectory
  | invalidPath
  deriving DecidableEq

def FileProblem.message : FileProblem → String
  | .notFound => "no such file or directory"
  | .isDirectory => "is a directory"
  | .notDirectory => "not a directory"
  | .invalidPath => "invalid argument"

/-- What was being done to a file when it failed. -/
inductive FileAction where
  | openFile
  | readFile
  | listDirectory
  deriving DecidableEq

def FileAction.label : FileAction → String
  | .openFile => "open"
  | .readFile => "read"
  | .listDirectory => "readdirent"

structure FileError where
  action : FileAction
  path : String
  problem : FileProblem
  deriving DecidableEq

def FileError.message (error : FileError) : String :=
  error.action.label ++ " " ++ error.path ++ ": " ++ error.problem.message

structure Workspace where
  tree : FileTree
  /-- The place of the directory in which the program runs. -/
  directory : Place

namespace Workspace

/-- The place to which names lead from a place. -/
def follow (tree : FileTree) : Place → List String → Except FileProblem Place
  | place, [] => .ok place
  | place, name :: names =>
    match tree.find? place with
    | none => .error .notFound
    | some (.file _) => .error .notDirectory
    | some .directory =>
      if name == "" || name == "." then follow tree place names
      else if name == ".." then follow tree place.dropLast names
      else
        match Path.Name.ofText? name with
        | none => .error .invalidPath
        | some name => follow tree (place ++ [name]) names

/-- The place to which a path leads.  There need not be anything yet. -/
def resolve (workspace : Workspace) (path : String) : Except FileProblem Place :=
  if path.toList.contains '\x00' then .error .invalidPath
  else if path.isEmpty then .error .notFound
  else follow workspace.tree (if Path.isAbsolute path then [] else workspace.directory)
    (Path.names path)

/-- A step that fails with the given action and path. -/
def attempt {α : Type} (action : FileAction) (path : String) (outcome : Except FileProblem α) :
    Except FileError α :=
  outcome.mapError fun problem => ⟨action, path, problem⟩

def readFile (workspace : Workspace) (path : String) : Except FileError ByteArray := do
  let place ← attempt .openFile path (workspace.resolve path)
  match workspace.tree.find? place with
  | none => throw ⟨.openFile, path, .notFound⟩
  | some .directory => throw ⟨.readFile, path, .isDirectory⟩
  | some (.file contents) => return contents

/-- The workspace with a file written.  The directory has to be there. -/
def writeFile (workspace : Workspace) (path : String) (contents : ByteArray) :
    Except FileError Workspace := do
  let place ← attempt .openFile path (workspace.resolve path)
  match workspace.tree.find? place with
  | some .directory => throw ⟨.openFile, path, .isDirectory⟩
  | _ => return { workspace with tree := workspace.tree.set place (.file contents) }

/-- The names of the files in a directory.  Directories in it do not count. -/
def fileNames (workspace : Workspace) (path : String) : Except FileError (List String) := do
  let place ← attempt .openFile path (workspace.resolve path)
  match workspace.tree.find? place with
  | none => throw ⟨.openFile, path, .notFound⟩
  | some (.file _) => throw ⟨.listDirectory, path, .notDirectory⟩
  | some .directory =>
    return (workspace.tree.children place).filterMap fun (name, entry) =>
      match entry with
      | .directory => none
      | .file _ => some name.text

/-- Fails if there is nothing at a path. -/
def checkPresent (workspace : Workspace) (path : String) : Except FileProblem Unit := do
  let place ← workspace.resolve path
  if (workspace.tree.find? place).isNone then throw .notFound

/-! ## Setting up

A workspace is filled by putting files in it; the directories they need are
made on the way. -/

/-- A place below the directory of the workspace. -/
def placeOf (workspace : Workspace) (path : String) : Place :=
  workspace.directory ++ (Path.names (Path.clean path)).filterMap Path.Name.ofText?

def putFile (workspace : Workspace) (path : String) (contents : ByteArray) : Workspace :=
  let place := workspace.placeOf path
  { workspace with
    tree := (workspace.tree.makeDirectories [] place.dropLast).set place (.file contents) }

def makeDirectory (workspace : Workspace) (path : String) : Workspace :=
  { workspace with tree := workspace.tree.makeDirectories [] (workspace.placeOf path) }

def remove (workspace : Workspace) (path : String) : Workspace :=
  { workspace with tree := workspace.tree.remove (workspace.placeOf path) }

/-- A directory with nothing in it. -/
def empty (directory : Place) : Workspace :=
  ⟨FileTree.empty.makeDirectories [] directory, directory⟩

/-- All files below the directory of the workspace, with their paths. -/
def files (workspace : Workspace) : List (String × ByteArray) :=
  (workspace.tree.filesBelow workspace.directory).map fun (names, contents) =>
    ("/".intercalate (names.map Path.Name.text), contents)

end Workspace

end ClassLang
