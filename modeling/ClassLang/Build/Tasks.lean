import ClassLang.Build.Sources

/-!
# Tasks

Every file of a module is compiled by a task of its own.  The tasks form a group
and take turns, in any order.  Each puts its unit into its own slot.  A task that
fails hands its error to the group, which keeps the first one that it gets and
is then cancelled.  A task that begins in a cancelled group fails.
-/

namespace ClassLang

/-- What a task does in its next turn. -/
inductive TaskPhase where
  /-- Begin, unless the group is cancelled. -/
  | checking
  | reading
  | compiling (contents : ByteArray)
  | storing (unit : CompiledUnit)
  /-- Hand an error to the group. -/
  | failing (error : BuildError)
  /-- Cancel the group, which has kept the error of the task. -/
  | cancelling
  | ended

/-- The most turns that a task can still take. -/
def TaskPhase.turnsLeft : TaskPhase → Nat
  | .checking => 5
  | .reading => 4
  | .compiling _ => 3
  | .failing _ => 2
  | .storing _ => 1
  | .cancelling => 1
  | .ended => 0

/-- What is in a slot before a unit is. -/
def CompiledUnit.blank : CompiledUnit :=
  ⟨⟨"", ""⟩, ⟨[], []⟩⟩

/-- A number of tasks and what they share. -/
structure TaskGroup (count : Nat) where
  phases : Vector TaskPhase count
  slots : Vector CompiledUnit count
  /-- The first error that a task handed in. -/
  error? : Option BuildError
  cancelled : Bool

namespace TaskGroup

variable {count : Nat}

def start (count : Nat) : TaskGroup count :=
  ⟨.replicate count .checking, .replicate count .blank, none, false⟩

def setPhase (group : TaskGroup count) (task : Fin count) (phase : TaskPhase) :
    TaskGroup count :=
  { group with phases := group.phases.set task phase task.isLt }

/-- What the group comes to when all its tasks have ended. -/
def result (group : TaskGroup count) : Except BuildError (List CompiledUnit) :=
  match group.error? with
  | some error => .error error
  | none => .ok group.slots.toList

/-- The turns of tasks that run one after the other. -/
def turnsInOrder (count : Nat) : List (Fin count) :=
  (List.finRange count).flatMap (List.replicate TaskPhase.checking.turnsLeft)

end TaskGroup

namespace Workspace

variable (workspace : Workspace) (target : Target) (extension : String)

/-- One turn of a task, where the tasks are to compile the files at some paths. -/
def taskTurn {paths : List String} (group : TaskGroup paths.length) (task : Fin paths.length) :
    TaskGroup paths.length :=
  match group.phases.get task with
  | .checking =>
    group.setPhase task (if group.cancelled then .failing .cancelled else .reading)
  | .reading =>
    match workspace.readSource (paths.get task) extension with
    | .ok contents => group.setPhase task (.compiling contents)
    | .error error => group.setPhase task (.failing error)
  | .compiling contents =>
    match CompiledUnit.ofSource target (Path.base (paths.get task)) (Text.decode contents) with
    | .ok unit => group.setPhase task (.storing unit)
    | .error error => group.setPhase task (.failing error)
  | .storing unit =>
    { group.setPhase task .ended with slots := group.slots.set task unit task.isLt }
  | .failing error =>
    match group.error? with
    | some _ => group.setPhase task .ended
    | none => { group.setPhase task .cancelling with error? := some error }
  | .cancelling => { group.setPhase task .ended with cancelled := true }
  | .ended => group

/-- The group of tasks for some files, after the given turns. -/
def runTasks (paths : List String) (turns : List (Fin paths.length)) : TaskGroup paths.length :=
  turns.foldl (workspace.taskTurn target extension) (.start paths.length)

/-- The units for some files, in the same order. -/
def compileFiles (paths : List String) : Except BuildError (List CompiledUnit) :=
  (workspace.runTasks target extension paths (TaskGroup.turnsInOrder paths.length)).result

end Workspace

end ClassLang
