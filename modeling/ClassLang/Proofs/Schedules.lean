import ClassLang.Build.Tasks
import ClassLang.Proofs.Concatenation
import ClassLang.Proofs.Places
import Mathlib.Data.Fin.Basic
import Mathlib.Data.List.Forall2
import Mathlib.Data.List.Induction

/-!
# Turns in any order

What a group of tasks comes to does not depend on the order of their turns.  If
every file can be compiled, it is the units in the order of the files.  If not, it
is the own error of a file, and never the one that only says that the group was
cancelled, since a group has kept an error before it is cancelled.
-/

namespace ClassLang

section Slots

variable {α : Type} {count : Nat}

theorem get_set_self (values : Vector α count) (index : Fin count) (value : α) :
    (values.set index value index.isLt).get index = value :=
  Vector.getElem_set_self index.isLt

theorem get_set_of_ne (values : Vector α count) {index other : Fin count} (value : α)
    (hne : other ≠ index) :
    (values.set index value index.isLt).get other = values.get other :=
  Vector.getElem_set_ne index.isLt other.isLt fun heq => hne (Fin.ext heq.symm)

end Slots

/-- All tasks of the group have ended. -/
def TaskGroup.IsEnded {count : Nat} (group : TaskGroup count) : Prop :=
  ∀ task, group.phases.get task = .ended

theorem TaskPhase.eq_ended_of_turnsLeft_le {phase : TaskPhase} (hleft : phase.turnsLeft ≤ 0) :
    phase = .ended := by
  cases phase <;> first | rfl | cases hleft

/-- The unit for a file, without any tasks.  It has the last name of the path. -/
def Workspace.compileFile (workspace : Workspace) (target : Target) (extension path : String) :
    Except BuildError CompiledUnit := do
  let contents ← workspace.readSource path extension
  CompiledUnit.ofSource target (Path.base path) (Text.decode contents)

/-! ## What a turn leaves -/

namespace TaskGroup

variable {count : Nat} {group next : TaskGroup count} {task : Fin count} {phase : TaskPhase}

/-- The other tasks and their slots are left alone, and an error that was kept is
not replaced. -/
structure OnlyTask (task : Fin count) (group next : TaskGroup count) : Prop where
  phase : ∀ other, other ≠ task → next.phases.get other = group.phases.get other
  slot : ∀ other, other ≠ task → next.slots.get other = group.slots.get other
  error : group.error?.isSome = true → next.error? = group.error?

/-- What a task does: it moves on by itself, may fill its own slot, and may keep the first
error. -/
theorem onlyTask_of_phases (hphases : next.phases = group.phases.set task phase task.isLt)
    (hslot : ∀ other, other ≠ task → next.slots.get other = group.slots.get other)
    (herror : group.error?.isSome = true → next.error? = group.error?) :
    OnlyTask task group next where
  phase other hne := by rw [hphases, get_set_of_ne group.phases phase hne]
  slot := hslot
  error := herror

theorem onlyTask_setPhase (group : TaskGroup count) (task : Fin count) (phase : TaskPhase) :
    OnlyTask task group (group.setPhase task phase) :=
  onlyTask_of_phases rfl (fun _ _ => rfl) (fun _ => rfl)

theorem onlyTask_store (group : TaskGroup count) (task : Fin count) (unit : CompiledUnit) :
    OnlyTask task group
      { group.setPhase task .ended with slots := group.slots.set task unit task.isLt } :=
  onlyTask_of_phases rfl (fun _ hne => get_set_of_ne group.slots unit hne) (fun _ => rfl)

theorem onlyTask_keep (hnone : group.error? = none) (task : Fin count) (error : BuildError) :
    OnlyTask task group { group.setPhase task .cancelling with error? := some error } :=
  onlyTask_of_phases rfl (fun _ _ => rfl) (by simp [hnone])

theorem onlyTask_cancel (group : TaskGroup count) (task : Fin count) :
    OnlyTask task group { group.setPhase task .ended with cancelled := true } :=
  onlyTask_of_phases rfl (fun _ _ => rfl) (fun _ => rfl)

end TaskGroup

/-! ## What is true in a phase -/

namespace Workspace

section Facts

variable (workspace : Workspace) (target : Target) (extension : String) {paths : List String}

/-- What a group knows of a task in a phase.  Once it has kept an error, it does
not matter with which error another task fails. -/
def TaskFact (group : TaskGroup paths.length) (task : Fin paths.length) : TaskPhase → Prop
  | .checking => True
  | .reading => True
  | .compiling contents => workspace.readSource (paths.get task) extension = .ok contents
  | .storing unit => workspace.compileFile target extension (paths.get task) = .ok unit
  | .failing error =>
    group.error?.isSome = true ∨
      workspace.compileFile target extension (paths.get task) = .error error
  | .cancelling => group.error?.isSome = true
  | .ended =>
    group.error?.isSome = true ∨
      workspace.compileFile target extension (paths.get task) = .ok (group.slots.get task)

/-- What is true of a group whenever its tasks have taken some turns. -/
structure GroupFacts (group : TaskGroup paths.length) : Prop where
  task : ∀ task, workspace.TaskFact target extension group task (group.phases.get task)
  error : ∀ error, group.error? = some error →
    ∃ path ∈ paths, workspace.compileFile target extension path = .error error
  cancelled : group.cancelled = true → group.error?.isSome = true

end Facts

variable {workspace : Workspace} {target : Target} {extension : String} {paths : List String}
  {group next : TaskGroup paths.length} {task : Fin paths.length}

theorem TaskFact.of_same {phase : TaskPhase}
    (hfact : workspace.TaskFact target extension group task phase)
    (herror : group.error?.isSome = true → next.error?.isSome = true)
    (hslot : next.slots.get task = group.slots.get task) :
    workspace.TaskFact target extension next task phase := by
  cases phase with
  | checking | reading => trivial
  | compiling contents => exact hfact
  | storing unit => exact hfact
  | failing error => exact hfact.imp_left herror
  | cancelling => exact herror hfact
  | ended =>
    rw [TaskFact, hslot]
    exact hfact.imp_left herror

/-- At the start nothing has been found out yet. -/
theorem groupFacts_start :
    workspace.GroupFacts target extension (TaskGroup.start paths.length) where
  task task := by
    have hphase : (TaskGroup.start paths.length).phases.get task = .checking :=
      Vector.getElem_replicate task.isLt
    rw [hphase]
    trivial
  error error heq := by cases heq
  cancelled heq := by cases heq

/-- After a turn, only the new phase of the task and what the turn did to the
group have to be justified. -/
theorem GroupFacts.of_onlyTask {phase : TaskPhase}
    (hfacts : workspace.GroupFacts target extension group)
    (honly : TaskGroup.OnlyTask task group next) (hphase : next.phases.get task = phase)
    (htask : workspace.TaskFact target extension next task phase)
    (herror : ∀ error, group.error? = none → next.error? = some error →
      workspace.compileFile target extension (paths.get task) = .error error)
    (hcancelled : next.cancelled = true → next.error?.isSome = true) :
    workspace.GroupFacts target extension next where
  task other := by
    by_cases hother : other = task
    · rw [hother, hphase]
      exact htask
    · rw [honly.phase other hother]
      refine (hfacts.task other).of_same (fun hsome => ?_) (honly.slot other hother)
      rw [honly.error hsome]
      exact hsome
  error error heq := by
    cases hkept : group.error? with
    | none => exact ⟨paths.get task, List.get_mem paths task, herror error hkept heq⟩
    | some kept =>
      apply hfacts.error
      rw [← honly.error (by rw [hkept]; rfl)]
      exact heq
  cancelled := hcancelled

theorem GroupFacts.setPhase {phase : TaskPhase}
    (hfacts : workspace.GroupFacts target extension group)
    (hphase : workspace.TaskFact target extension group task phase) :
    workspace.GroupFacts target extension (group.setPhase task phase) := by
  apply hfacts.of_onlyTask (group.onlyTask_setPhase task phase)
    (get_set_self group.phases task phase) (hphase.of_same id rfl)
  · intro error hnone hsome
    cases hnone.symm.trans hsome
  · exact hfacts.cancelled

/-- A turn of any task keeps the facts.  Each phase adds what the turn has found out. -/
theorem GroupFacts.taskTurn (hfacts : workspace.GroupFacts target extension group)
    (task : Fin paths.length) :
    workspace.GroupFacts target extension (workspace.taskTurn target extension group task) := by
  have hfact := hfacts.task task
  unfold Workspace.taskTurn
  cases hphase : group.phases.get task with
  | checking =>
    apply hfacts.setPhase
    split
    · next hcancelled => exact .inl (hfacts.cancelled hcancelled)
    · trivial
  | reading =>
    dsimp only
    cases hread : workspace.readSource (paths.get task) extension with
    | ok contents => exact hfacts.setPhase hread
    | error error =>
      apply hfacts.setPhase
      right
      rw [compileFile, hread]
      rfl
  | compiling contents =>
    rw [hphase] at hfact
    have hcompile : workspace.compileFile target extension (paths.get task) =
        CompiledUnit.ofSource target (Path.base (paths.get task)) (Text.decode contents) := by
      rw [compileFile, show workspace.readSource _ _ = _ from hfact]
      rfl
    dsimp only
    split
    · next unit hunit => exact hfacts.setPhase (hcompile.trans hunit)
    · next error herror => exact hfacts.setPhase (.inr (hcompile.trans herror))
  | storing unit =>
    rw [hphase] at hfact
    apply hfacts.of_onlyTask (group.onlyTask_store task unit)
      (get_set_self group.phases task .ended)
    · right
      rw [get_set_self]
      exact hfact
    · intro error hnone hsome
      cases hnone.symm.trans hsome
    · exact hfacts.cancelled
  | failing error =>
    rw [hphase] at hfact
    dsimp only
    cases hkept : group.error? with
    | some kept => exact hfacts.setPhase (.inl (by rw [hkept]; rfl))
    | none =>
      -- Nothing is kept yet, so nothing is cancelled and the error is the task's own.
      have hown := hfact.resolve_left (by simp [hkept])
      apply hfacts.of_onlyTask (TaskGroup.onlyTask_keep hkept task error)
        (get_set_self group.phases task .cancelling) rfl
      · intro other _ hsome
        cases hsome
        exact hown
      · exact fun _ => rfl
  | cancelling =>
    rw [hphase] at hfact
    apply hfacts.of_onlyTask (group.onlyTask_cancel task)
      (get_set_self group.phases task .ended) (.inl hfact)
    · intro error hnone hsome
      cases hnone.symm.trans hsome
    · exact fun _ => hfact
  | ended => exact hfacts

theorem runTasks_append_singleton (turns : List (Fin paths.length)) (task : Fin paths.length) :
    workspace.runTasks target extension paths (turns ++ [task]) =
      workspace.taskTurn target extension
        (workspace.runTasks target extension paths turns) task := by
  rw [runTasks, List.foldl_append]
  rfl

/-- The facts hold after any turns, by induction on the turns. -/
theorem groupFacts_runTasks (turns : List (Fin paths.length)) :
    workspace.GroupFacts target extension (workspace.runTasks target extension paths turns) := by
  induction turns using List.reverseRecOn with
  | nil => exact groupFacts_start
  | append_singleton turns task ih =>
    rw [runTasks_append_singleton]
    exact ih.taskTurn task

/-! ## How tasks end -/

/-- A turn leaves the other tasks alone. -/
theorem onlyTask_taskTurn (group : TaskGroup paths.length) (task : Fin paths.length) :
    TaskGroup.OnlyTask task group (workspace.taskTurn target extension group task) := by
  unfold taskTurn
  cases group.phases.get task with
  | checking => exact group.onlyTask_setPhase task _
  | reading =>
    dsimp only
    split <;> exact group.onlyTask_setPhase task _
  | compiling contents =>
    dsimp only
    split <;> exact group.onlyTask_setPhase task _
  | storing unit => exact group.onlyTask_store task unit
  | failing error =>
    cases hkept : group.error? with
    | some kept => exact group.onlyTask_setPhase task _
    | none => exact TaskGroup.onlyTask_keep hkept task error
  | cancelling => exact group.onlyTask_cancel task
  | ended => exact ⟨fun _ _ => rfl, fun _ _ => rfl, fun _ => rfl⟩

/-- A turn is never lost: the task has one turn less to go. -/
theorem turnsLeft_taskTurn (group : TaskGroup paths.length) (task : Fin paths.length) :
    ((workspace.taskTurn target extension group task).phases.get task).turnsLeft ≤
      (group.phases.get task).turnsLeft - 1 := by
  have hset (phase : TaskPhase) : (group.setPhase task phase).phases.get task = phase :=
    get_set_self group.phases task phase
  unfold taskTurn
  cases hphase : group.phases.get task with
  | checking =>
    rw [hset]
    split <;> decide
  | reading | compiling =>
    dsimp only
    split <;> simp [hset, TaskPhase.turnsLeft]
  | failing error =>
    dsimp only
    split
    · simp [hset, TaskPhase.turnsLeft]
    · change ((group.setPhase task .cancelling).phases.get task).turnsLeft ≤ _
      rw [hset]
      exact Nat.le_refl _
  | storing | cancelling =>
    change ((group.setPhase task .ended).phases.get task).turnsLeft ≤ _
    rw [hset]
    exact Nat.zero_le _
  | ended =>
    rw [hphase]
    exact Nat.le_refl _

/-- So the turns of a task count down, whatever the others do in between. -/
theorem turnsLeft_runTasks (turns : List (Fin paths.length)) (task : Fin paths.length) :
    ((workspace.runTasks target extension paths turns).phases.get task).turnsLeft ≤
      TaskPhase.checking.turnsLeft - turns.count task := by
  induction turns using List.reverseRecOn with
  | nil =>
    have hphase : (TaskGroup.start paths.length).phases.get task = .checking :=
      Vector.getElem_replicate task.isLt
    rw [runTasks, List.foldl_nil, hphase]
    exact Nat.le_refl _
  | append_singleton turns other ih =>
    rw [runTasks_append_singleton, List.count_append]
    by_cases hother : task = other
    · subst hother
      rw [List.count_singleton_self, ← Nat.sub_sub]
      exact (turnsLeft_taskTurn _ task).trans (Nat.sub_le_sub_right ih 1)
    · have hnone : [other].count task = 0 := List.count_eq_zero.mpr (by simpa using hother)
      rw [(onlyTask_taskTurn _ other).phase task hother, hnone]
      exact ih

/-- A task has ended when it has taken as many turns as it needs at the most. -/
theorem isEnded_runTasks {turns : List (Fin paths.length)}
    (hturns : ∀ task, TaskPhase.checking.turnsLeft ≤ turns.count task) :
    (workspace.runTasks target extension paths turns).IsEnded := by
  intro task
  apply TaskPhase.eq_ended_of_turnsLeft_le
  calc
    _ ≤ TaskPhase.checking.turnsLeft - turns.count task := turnsLeft_runTasks turns task
    _ = 0 := Nat.sub_eq_zero_of_le (hturns task)

end Workspace

theorem TaskGroup.turnsLeft_le_count_turnsInOrder {count : Nat} (task : Fin count) :
    TaskPhase.checking.turnsLeft ≤ (turnsInOrder count).count task := by
  have hsublist : (List.replicate TaskPhase.checking.turnsLeft task).Sublist
      (turnsInOrder count) :=
    List.sublist_flatten_of_mem (List.mem_map_of_mem (List.mem_finRange task))
  calc
    TaskPhase.checking.turnsLeft =
        (List.replicate TaskPhase.checking.turnsLeft task).count task :=
      List.count_replicate_self.symm
    _ ≤ (turnsInOrder count).count task := hsublist.count_le task

/-! ## What a group comes to -/

namespace Workspace

section Outcome

variable (workspace : Workspace) (target : Target) (extension : String) (paths : List String)

/-- What compiling some files must come to.  It is the units of the files, in
order, or the own error of one of the files that cannot be compiled. -/
structure IsOutcome (result : Except BuildError (List CompiledUnit)) : Prop where
  units : (∀ path ∈ paths, ∃ unit, workspace.compileFile target extension path = .ok unit) →
    ∃ units, result = .ok units ∧
      List.Forall₂ (fun path unit => workspace.compileFile target extension path = .ok unit)
        paths units
  error : (∃ path ∈ paths, ∃ error, workspace.compileFile target extension path = .error error) →
    ∃ error, result = .error error ∧ error ≠ .cancelled ∧
      ∃ path ∈ paths, workspace.compileFile target extension path = .error error
  single : ∀ task error,
    workspace.compileFile target extension (paths.get task) = .error error →
    (∀ other, other ≠ task →
      ∃ unit, workspace.compileFile target extension (paths.get other) = .ok unit) →
    result = .error error

end Outcome

variable {workspace : Workspace} {target : Target} {extension : String} {paths : List String}
  {group : TaskGroup paths.length}

/-- Where the error of a file comes from. -/
theorem compileFile_eq_error {path : String} {error : BuildError}
    (heq : workspace.compileFile target extension path = .error error) :
    (∃ file, error = .file file) ∨
      Path.extension path ≠ extension ∧ error = .wrongExtension path extension ∨
      (∃ source, error = .source source) ∨ ∃ script, error = .script script := by
  rcases Parser.bind_eq_error heq with hread | ⟨contents, -, hunit⟩
  · rw [readSource] at hread
    split at hread
    · exact .inl (exists_of_mapError_eq_error hread)
    · next hextension =>
      exact .inr (.inl ⟨by simpa using hextension, (Except.error.inj hread).symm⟩)
  · rcases Parser.bind_eq_error hunit with hprogram | ⟨program, -, hrest⟩
    · exact .inr (.inr (.inl (exists_of_mapError_eq_error hprogram)))
    · rcases Parser.bind_eq_error hrest with hscript | ⟨script, -, hdone⟩
      · exact .inr (.inr (.inr (exists_of_mapError_eq_error hscript)))
      · cases hdone

/-- No file is cancelled by itself. -/
theorem compileFile_ne_cancelled (path : String) :
    workspace.compileFile target extension path ≠ .error .cancelled := by
  intro heq
  rcases compileFile_eq_error heq with ⟨_, ⟨⟩⟩ | ⟨-, ⟨⟩⟩ | ⟨_, ⟨⟩⟩ | ⟨_, ⟨⟩⟩

/-- Without an error every slot has the unit of its file. -/
theorem GroupFacts.forall₂_slots (hfacts : workspace.GroupFacts target extension group)
    (hended : group.IsEnded) (hnone : group.error? = none) :
    List.Forall₂ (fun path unit => workspace.compileFile target extension path = .ok unit) paths
      group.slots.toList := by
  rw [List.forall₂_iff_get]
  refine ⟨group.slots.length_toList.symm, ?_⟩
  intro index hindex hslot
  have hfact := hfacts.task ⟨index, hindex⟩
  rw [hended] at hfact
  have hcompiled := hfact.resolve_left (by simp [hnone])
  simpa [Vector.get] using hcompiled

theorem IsOutcome.of_units {units : List CompiledUnit}
    (hunits : List.Forall₂
      (fun path unit => workspace.compileFile target extension path = .ok unit) paths units) :
    workspace.IsOutcome target extension paths (.ok units) := by
  have hcompiles : ∀ path ∈ paths, ∀ error,
      workspace.compileFile target extension path ≠ .error error := by
    intro path hmem error herror
    obtain ⟨index, rfl⟩ := List.get_of_mem hmem
    have hindex : index.val < units.length := hunits.length_eq ▸ index.isLt
    cases herror.symm.trans (hunits.get index.isLt hindex)
  constructor
  · exact fun _ => ⟨units, rfl, hunits⟩
  · rintro ⟨path, hmem, error, herror⟩
    exact absurd herror (hcompiles path hmem error)
  · intro task error herror _
    exact absurd herror (hcompiles (paths.get task) (List.get_mem paths task) error)

theorem IsOutcome.of_error {error : BuildError}
    (herror : ∃ path ∈ paths, workspace.compileFile target extension path = .error error) :
    workspace.IsOutcome target extension paths (.error error) := by
  obtain ⟨path, hmem, hpath⟩ := herror
  constructor
  · intro hcompiles
    obtain ⟨unit, hunit⟩ := hcompiles path hmem
    cases hpath.symm.trans hunit
  · intro _
    refine ⟨error, rfl, ?_, path, hmem, hpath⟩
    rintro rfl
    exact compileFile_ne_cancelled path hpath
  · intro task other htask hothers
    obtain ⟨index, rfl⟩ := List.get_of_mem hmem
    by_cases hindex : index = task
    · rw [hindex, htask] at hpath
      cases hpath
      rfl
    · obtain ⟨unit, hunit⟩ := hothers index hindex
      cases hpath.symm.trans hunit

/-- A group in which all tasks have ended comes to an outcome. -/
theorem GroupFacts.isOutcome (hfacts : workspace.GroupFacts target extension group)
    (hended : group.IsEnded) : workspace.IsOutcome target extension paths group.result := by
  rw [TaskGroup.result]
  cases hkept : group.error? with
  | none => exact .of_units (hfacts.forall₂_slots hended hkept)
  | some error => exact .of_error (hfacts.error error hkept)

end Workspace

/-- Whatever the order of the turns: when every task has had its turns, all have
ended, and once they have, the group comes to what it must.  Compiling the files
one after the other is one of the orders. -/
theorem compileFiles_independent_of_turns (workspace : Workspace) (target : Target)
    (extension : String) (paths : List String) :
    (∀ turns : List (Fin paths.length),
      ((∀ task, TaskPhase.checking.turnsLeft ≤ turns.count task) →
        (workspace.runTasks target extension paths turns).IsEnded) ∧
      ((workspace.runTasks target extension paths turns).IsEnded →
        workspace.IsOutcome target extension paths
          (workspace.runTasks target extension paths turns).result)) ∧
      workspace.IsOutcome target extension paths
        (workspace.compileFiles target extension paths) := by
  have hended : ∀ turns : List (Fin paths.length),
      (workspace.runTasks target extension paths turns).IsEnded →
        workspace.IsOutcome target extension paths
          (workspace.runTasks target extension paths turns).result :=
    fun turns => (Workspace.groupFacts_runTasks turns).isOutcome
  refine ⟨fun turns => ⟨Workspace.isEnded_runTasks, hended turns⟩, ?_⟩
  exact hended _ (Workspace.isEnded_runTasks TaskGroup.turnsLeft_le_count_turnsInOrder)

/-- A task that begins too late fails as cancelled, but the group keeps the error
of the other one; and units stand in the order of the files, also if the last file
is compiled first. -/
theorem compileFiles_independent_of_turns_late :
    ∃ (workspace : Workspace) (first last : CompiledUnit),
      workspace = (Workspace.emptyModule.putFile "a.cls" "break;".toUTF8).putFile
        "b.cls" "return;".toUTF8 ∧
      first = ⟨⟨"a.cls", "break;\n"⟩, ⟨[], [.breakLoop]⟩⟩ ∧
      last = ⟨⟨"b.cls", "return;\n"⟩, ⟨[], [.returnNone]⟩⟩ ∧
      (workspace.runTasks .es5 ".cls" ["a.txt", "b.cls"] [0, 0, 0, 0, 0, 1, 1, 1, 1, 1]).result =
        .error (.wrongExtension "a.txt" ".cls") ∧
      (workspace.runTasks .es5 ".cls" ["a.cls", "b.cls"] [1, 1, 1, 1, 1, 0, 0, 0, 0, 0]).result =
        .ok [first, last] := by
  refine ⟨_, _, _, rfl, rfl, rfl, ?_, ?_⟩
  all_goals
    generalize hworkspace : (Workspace.emptyModule.putFile "a.cls" "break;".toUTF8).putFile
        "b.cls" "return;".toUTF8 = workspace
    have hlast : workspace.compileFile .es5 ".cls" "b.cls" =
        .ok ⟨⟨"b.cls", "return;\n"⟩, ⟨[], [.returnNone]⟩⟩ := by
      have hprogram : Program.ofSource "return;" "b.cls" = .ok ⟨[], [.returnNone]⟩ :=
        Program.ofSource_of_source_eq (by decide) (by decide) "b.cls"
      rw [← hworkspace]
      exact CompiledUnit.ofSource_eq_ok hprogram rfl
  · have htext : workspace.compileFile .es5 ".cls" "a.txt" =
        .error (.wrongExtension "a.txt" ".cls") := by
      rw [← hworkspace]
      rfl
    obtain ⟨hends, hcomes⟩ := (compileFiles_independent_of_turns workspace .es5 ".cls"
      ["a.txt", "b.cls"]).1 [0, 0, 0, 0, 0, 1, 1, 1, 1, 1]
    apply (hcomes (hends (by decide))).single 0 _ htext
    intro other hother
    rw [Fin.eq_one_of_ne_zero other hother]
    exact ⟨_, hlast⟩
  · have hfirst : workspace.compileFile .es5 ".cls" "a.cls" =
        .ok ⟨⟨"a.cls", "break;\n"⟩, ⟨[], [.breakLoop]⟩⟩ := by
      have hprogram : Program.ofSource "break;" "a.cls" = .ok ⟨[], [.breakLoop]⟩ :=
        Program.ofSource_of_source_eq (by decide) (by decide) "a.cls"
      rw [← hworkspace]
      exact CompiledUnit.ofSource_eq_ok hprogram rfl
    obtain ⟨hends, hcomes⟩ := (compileFiles_independent_of_turns workspace .es5 ".cls"
      ["a.cls", "b.cls"]).1 [1, 1, 1, 1, 1, 0, 0, 0, 0, 0]
    obtain ⟨units, hresult, hunits⟩ := (hcomes (hends (by decide))).units (by simp [hfirst, hlast])
    rw [hresult]
    cases hunits with
    | cons hone hothers =>
      cases hothers with
      | cons htwo hnil =>
        cases hnil
        cases hfirst.symm.trans hone
        cases hlast.symm.trans htwo
        rfl

end ClassLang
