/-!
# Paths

A path is a text in which slashes separate names.  The functions here work on
the text alone and look at no file: the extension and the last name of a path,
its shortest form, and paths put together.
-/

namespace ClassLang.Path

def isAbsolute (path : String) : Bool :=
  path.toList.head? == some '/'

/-- The names between the slashes.  Two slashes side by side have an empty name
between them. -/
def names (path : String) : List String :=
  (path.toList.splitOn '/').map String.ofList

/-- What can be the name of a file or a directory in a path. -/
structure IsName (name : String) : Prop where
  ne_empty : name ≠ ""
  ne_here : name ≠ "."
  ne_above : name ≠ ".."
  slash : '/' ∉ name.toList

instance (name : String) : Decidable (IsName name) :=
  decidable_of_iff (name ≠ "" ∧ name ≠ "." ∧ name ≠ ".." ∧ '/' ∉ name.toList)
    ⟨fun h => ⟨h.1, h.2.1, h.2.2.1, h.2.2.2⟩, fun h => ⟨h.ne_empty, h.ne_here, h.ne_above, h.slash⟩⟩

/-- A name that a file or a directory has.  No system takes a zero character. -/
structure Name where
  text : String
  isName : IsName text
  zero : '\x00' ∉ text.toList
  deriving DecidableEq

def Name.ofText? (text : String) : Option Name :=
  if h : IsName text ∧ '\x00' ∉ text.toList then some ⟨text, h.1, h.2⟩ else none

/-- The text from the last dot of the last name, or nothing if that name has no
dot. -/
def extension (path : String) : String :=
  let reversed := path.toList.reverse
  let tail := reversed.takeWhile fun c => c != '.' && c != '/'
  if reversed[tail.length]? == some '.' then String.ofList ('.' :: tail.reverse) else ""

/-- The last name, where slashes at the end do not count. -/
def base (path : String) : String :=
  let trimmed := path.toList.reverse.dropWhile (· == '/')
  if path.isEmpty then "."
  else if trimmed.isEmpty then "/"
  else String.ofList (trimmed.takeWhile (· != '/')).reverse

/-- Goes from the names kept so far, last one first, to the next name.  A `..`
takes back the name before it; where there is none it stays, unless the path
starts at the root. -/
def cleanStep (absolute : Bool) (kept : List String) (name : String) : List String :=
  if name == "" || name == "." then kept
  else if name == ".." then
    match kept with
    | [] => if absolute then [] else [".."]
    | ".." :: _ => ".." :: kept
    | _ :: outer => outer
  else name :: kept

/-- The shortest path that leads to the same place, without `.`, without
avoidable `..`, and with single slashes. -/
def clean (path : String) : String :=
  let absolute := isAbsolute path
  let kept := (names path).foldl (cleanStep absolute) []
  let joined := "/".intercalate kept.reverse
  if absolute then "/" ++ joined
  else if joined.isEmpty then "."
  else joined

/-- The parts one after the other, cleaned.  Empty parts do not count. -/
def join (parts : List String) : String :=
  match parts.filter (fun part => !part.isEmpty) with
  | [] => ""
  | parts => clean ("/".intercalate parts)

end ClassLang.Path
