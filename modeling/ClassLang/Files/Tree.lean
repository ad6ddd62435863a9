import ClassLang.Files.Path

/-!
# File trees

A file tree says what stands at each place.  A place is the list of names that
lead to it from the root; the root is a directory.
-/

namespace ClassLang

abbrev Place := List Path.Name

inductive Entry where
  | directory
  | file (contents : ByteArray)

/-- What stands at the places, which are all different. -/
structure FileTree where
  entries : List (Place × Entry)
  distinct : (entries.map Prod.fst).Nodup

namespace FileTree

def empty : FileTree :=
  ⟨[], List.nodup_nil⟩

def find? (tree : FileTree) (place : Place) : Option Entry :=
  if place.isEmpty then some .directory else tree.entries.lookup place

theorem distinct_filter (tree : FileTree) (keep : Place × Entry → Bool) :
    ((tree.entries.filter keep).map Prod.fst).Nodup :=
  tree.distinct.sublist (List.filter_sublist.map Prod.fst)

theorem distinct_set (tree : FileTree) (place : Place) (entry : Entry) :
    (((place, entry) :: tree.entries.filter fun other => other.1 != place).map
      Prod.fst).Nodup := by
  rw [List.map_cons, List.nodup_cons]
  refine ⟨?_, tree.distinct_filter _⟩
  simp

/-- The tree with the given entry at the given place, whatever stood there. -/
def set (tree : FileTree) (place : Place) (entry : Entry) : FileTree :=
  ⟨(place, entry) :: tree.entries.filter fun other => other.1 != place,
    tree.distinct_set place entry⟩

/-- The tree without a place and all that is below it. -/
def remove (tree : FileTree) (place : Place) : FileTree :=
  ⟨tree.entries.filter fun other => !place.isPrefixOf other.1, tree.distinct_filter _⟩

/-- The tree with a directory at each place on the way from a place along some
names.  What is there already stays. -/
def makeDirectories (tree : FileTree) (place : Place) : List Path.Name → FileTree
  | [] => tree
  | name :: names =>
    let place := place ++ [name]
    let tree := if (tree.find? place).isSome then tree else tree.set place .directory
    tree.makeDirectories place names

/-- The names in a directory and what they stand for, in no particular order. -/
def children (tree : FileTree) (place : Place) : List (Path.Name × Entry) :=
  tree.entries.filterMap fun (other, entry) =>
    match other.getLast? with
    | some name => if other.dropLast == place then some (name, entry) else none
    | none => none

/-- The files below a place, with the names that lead to them from there. -/
def filesBelow (tree : FileTree) (place : Place) : List (Place × ByteArray) :=
  tree.entries.filterMap fun (other, entry) =>
    match entry with
    | .directory => none
    | .file contents =>
      if place.isPrefixOf other then some (other.drop place.length, contents) else none

/-- The files that are new in a tree or have other contents than before. -/
def changes (before after : FileTree) : List (Place × ByteArray) :=
  (after.filesBelow []).filter fun (place, contents) =>
    match before.find? place with
    | some (.file old) => old.data != contents.data
    | _ => true

end FileTree

end ClassLang
