import ClassLang.Build.Error

/-!
# Steps in a workspace

What the program does to files it does step by step.  A step may fail, and then
the steps after it are not taken.  But what the steps before it have written
stays written: the workspace that was reached is kept with the error.
-/

namespace ClassLang

abbrev FileStep : Type → Type :=
  EStateM BuildError Workspace

namespace FileStep

/-- Look at the files. -/
def look {α : Type} (query : Workspace → Except BuildError α) : FileStep α := fun workspace =>
  match query workspace with
  | .ok value => .ok value workspace
  | .error error => .error error workspace

/-- Write a file, as a whole or not at all. -/
def write (path : String) (contents : ByteArray) : FileStep Unit := fun workspace =>
  match workspace.writeFile path contents with
  | .ok written => .ok () written
  | .error error => .error (.file error) workspace

end FileStep

end ClassLang
