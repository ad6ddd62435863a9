import ClassLang.Command.Run
import ClassLang.Proofs.Steps
import Mathlib.Data.List.Induction

/-!
# What runs change

Every command owns at most one file, and a run changes nothing else.  A run that
fails changes nothing at all and shows nothing but its error: a command first looks at
all that it needs, then writes its file, and prints and logs when nothing can go wrong
any more.  So whatever differs after some runs is the manifest or the output of one of
them.
-/

namespace ClassLang

/-- The name of the file of a manifest, in its directory. -/
def Manifest.entryName : Path.Name :=
  ⟨fileName, by decide, by decide⟩

/-- Where a build in the current directory leaves its script. -/
def Workspace.HasOutput (workspace : Workspace) (requested : String) (place : Place) : Prop :=
  ∃ manifest, workspace.readManifest "." = .ok manifest ∧
    workspace.resolve (manifest.outputPath "." requested) = .ok place

/-- Commands that write no file. -/
def Command.onlyLooks : Command → Bool
  | .tokens _ | .listing _ | .outline _ => true
  | .build _ _ dump => dump
  | .init _ | .watch _ _ => false

/-- The place that a command may write to: that of the manifest, or the output of
the module. -/
def Command.Owns (workspace : Workspace) (place : Place) : Command → Prop
  | .init _ => place = workspace.directory ++ [Manifest.entryName]
  | .build requested _ false | .watch requested _ => workspace.HasOutput requested place
  | _ => False

namespace Workspace

/-- What a run may do to the workspace before it, and what it may show. -/
structure RunFrame (before : Workspace) (arguments : List String) (outcome : Outcome) :
    Prop where
  /-- A run that fails leaves everything as it is and shows nothing but its error. -/
  failed : outcome.ending.exitCode ≠ 0 → outcome.session.workspace = before ∧
    outcome.session.printed = "" ∧ outcome.output = outcome.ending.notice
  refused : ∀ error, Command.ofArguments arguments = .error error →
    outcome.session.workspace = before
  looked : ∀ command, Command.ofArguments arguments = .ok command →
    command.onlyLooks = true → outcome.session.workspace = before
  directory : outcome.session.workspace.directory = before.directory
  owned : ∀ command, Command.ofArguments arguments = .ok command →
    ∀ place, ¬command.Owns before place →
      outcome.session.workspace.tree.find? place = before.tree.find? place
  /-- A build that succeeds leaves the linked units in its output. -/
  built : ∀ requested name, Command.ofArguments arguments = .ok (.build requested name false) →
    outcome.ending.exitCode = 0 → ∃ manifest target units,
      before.readManifest "." = .ok manifest ∧ Target.named name = .ok target ∧
      before.compileDirectory target "." manifest = .ok units ∧
      outcome.session.workspace.readFile (manifest.outputPath "." requested) =
        .ok (manifest.link (units.map CompiledUnit.toUnitScript)).toUTF8

/-- The workspace after some runs, one after the other.  What a run that failed has
reached counts as well. -/
def afterRuns (workspace : Workspace) (runs : List (List String)) : Workspace :=
  runs.foldl (fun workspace arguments => (workspace.runProgram arguments).session.workspace)
    workspace

variable {workspace after : Workspace} {target : Target} {manifest : Manifest}
  {directory requested path : String} {place : Place}

/-! ## Steps in the workspace -/

/-- A build looks at the sources and then writes one file. -/
theorem build_eq_ok_iff :
    build target directory requested manifest workspace = .ok path after ↔
      manifest.outputPath directory requested = path ∧
        ∃ units, workspace.compileDirectory target directory manifest = .ok units ∧
          workspace.writeFile path (manifest.link (units.map CompiledUnit.toUnitScript)).toUTF8 =
            .ok after := by
  unfold build
  simp only [step_bind_eq_ok_iff, FileStep.look_eq_ok_iff, FileStep.write_eq_ok_iff]
  constructor
  · rintro ⟨units, _, ⟨hunits, rfl⟩, _, written, hwrite, hdone⟩
    obtain ⟨hpath, rfl⟩ := EStateM.Result.ok.inj hdone
    exact ⟨hpath, units, hunits, hpath ▸ hwrite⟩
  · rintro ⟨rfl, units, hunits, hwrite⟩
    exact ⟨units, workspace, ⟨hunits, rfl⟩, (), after, hwrite, rfl⟩

/-- All that can fail in a build comes before its output is written. -/
theorem failsUnchanged_build (target : Target) (directory requested : String)
    (manifest : Manifest) : FailsUnchanged (build target directory requested manifest) :=
  (FileStep.isQuery_look _).failsUnchanged_bind fun _ =>
    (FileStep.failsUnchanged_write _ _).bind_neverFails fun _ => neverFails_pure _

/-- A manifest is checked and then written. -/
theorem writeManifest_eq_ok_iff {value : Unit} :
    writeManifest directory manifest workspace = .ok value after ↔
      manifest.validate = .ok () ∧
        workspace.writeFile (Manifest.path directory) manifest.text.toUTF8 = .ok after := by
  unfold writeManifest
  simp only [step_bind_eq_ok_iff, FileStep.look_eq_ok_iff, FileStep.write_eq_ok_iff,
    mapError_eq_ok_iff]
  constructor
  · rintro ⟨⟨⟩, _, ⟨hvalid, rfl⟩, hwrite⟩
    exact ⟨hvalid, hwrite⟩
  · rintro ⟨hvalid, hwrite⟩
    exact ⟨(), workspace, ⟨hvalid, rfl⟩, hwrite⟩

theorem failsUnchanged_writeManifest (directory : String) (manifest : Manifest) :
    FailsUnchanged (writeManifest directory manifest) :=
  (FileStep.isQuery_look _).failsUnchanged_bind fun _ => FileStep.failsUnchanged_write _ _

/-- The manifest of the current directory. -/
theorem eq_of_resolve_manifest (hresolve : workspace.resolve (Manifest.path ".") = .ok place) :
    place = workspace.directory ++ [Manifest.entryName] := by
  obtain ⟨-, -, hfollow⟩ := resolve_eq_ok_iff.mp hresolve
  change follow _ _ [Manifest.entryName.text] = _ at hfollow
  exact (follow_text_eq_ok_iff.mp hfollow).2

end Workspace

/-! ## Actions -/

namespace Action

variable {α β : Type} {step : FileStep α} {session after : Session} {manifest : Manifest}
  {target : Target} {requested : String}

theorem onFiles_eq_ok_iff {value : α} :
    onFiles step session = .ok value after ↔
      ∃ reached, step session.workspace = .ok value reached ∧
        after = { session with workspace := reached } := by
  unfold onFiles
  cases step session.workspace with
  | error error reached => simp
  | ok found reached => simp [eq_comm]

/-- Looking hands on what was found and changes nothing. -/
theorem look_bind_eq_ok_iff {query : Workspace → Except BuildError α} {next : α → Action β}
    {value : β} :
    (look query >>= next) session = .ok value after ↔
      ∃ found, query session.workspace = .ok found ∧ next found session = .ok value after := by
  simp only [step_bind_eq_ok_iff, look, onFiles_eq_ok_iff, FileStep.look_eq_ok_iff]
  constructor
  · rintro ⟨found, _, ⟨_, ⟨hfound, rfl⟩, rfl⟩, hnext⟩
    exact ⟨found, hfound, hnext⟩
  · rintro ⟨found, hfound, hnext⟩
    exact ⟨found, session, ⟨_, ⟨hfound, rfl⟩, rfl⟩, hnext⟩

theorem isQuery_look (query : Workspace → Except BuildError α) : IsQuery (look query) := by
  intro session
  unfold look onFiles
  rcases FileStep.isQuery_look query session.workspace with ⟨value, hlook⟩ | ⟨error, hlook⟩
  · exact .inl ⟨value, by rw [hlook]⟩
  · exact .inr ⟨error, by rw [hlook]⟩

/-- An action on files leaves what was printed alone. -/
theorem failsUnchanged_onFiles (hstep : FailsUnchanged step) : FailsUnchanged (onFiles step) := by
  intro session error after hfails
  unfold onFiles at hfails
  split at hfails
  · cases hfails
  · next reached hreached =>
    cases hfails
    rw [hstep hreached]

theorem failsUnchanged_build (manifest : Manifest) (target : Target) (requested : String) :
    FailsUnchanged (build manifest target requested) :=
  (failsUnchanged_onFiles (Workspace.failsUnchanged_build _ _ _ _)).bind_neverFails
    fun _ => neverFails_modify _

/-- What is printed or logged makes no difference to the files. -/
def KeepsFiles (action : Action α) : Prop :=
  ∀ ⦃session value after⦄, action session = .ok value after → after.workspace = session.workspace

theorem keepsFiles_print (text : String) : KeepsFiles (print text) := by
  rintro session value after ⟨⟩
  rfl

theorem keepsFiles_addToLog (text : String) : KeepsFiles (addToLog text) := by
  rintro session value after ⟨⟩
  rfl

theorem keepsFiles_forM {items : List α} {action : α → Action PUnit}
    (haction : ∀ item, KeepsFiles (action item)) : KeepsFiles (forM items action) := by
  induction items with
  | nil =>
    rintro session value after ⟨⟩
    rfl
  | cons item items ih =>
    intro session value after hrun
    rw [List.forM_cons] at hrun
    obtain ⟨_, middle, hitem, hitems⟩ := step_bind_eq_ok_iff.mp hrun
    rw [ih hitems, haction item hitem]

/-- Logging the path changes no file. -/
theorem build_eq_ok {value : Unit}
    (hbuild : build manifest target requested session = .ok value after) :
    Workspace.build target "." requested manifest session.workspace =
      .ok (manifest.outputPath "." requested) after.workspace := by
  obtain ⟨path, middle, hpath, hlog⟩ := step_bind_eq_ok_iff.mp hbuild
  obtain ⟨reached, hreached, rfl⟩ := onFiles_eq_ok_iff.mp hpath
  rw [hreached, keepsFiles_addToLog _ hlog, (Workspace.build_eq_ok_iff.mp hreached).1]

/-- A build writes its output and nothing else. -/
theorem hasOutput_of_build_eq_ok {value : Unit}
    (hmanifest : session.workspace.readManifest "." = .ok manifest)
    (hbuild : build manifest target requested session = .ok value after) :
    ∃ place contents, session.workspace.HasOutput requested place ∧
      after.workspace = session.workspace.withFile place contents := by
  obtain ⟨-, units, -, hwrite⟩ := Workspace.build_eq_ok_iff.mp (build_eq_ok hbuild)
  obtain ⟨place, hplace, -, hafter⟩ := Workspace.writeFile_eq_ok_iff.mp hwrite
  exact ⟨place, _, ⟨manifest, hmanifest, hplace⟩, hafter⟩

end Action

/-! ## Commands -/

namespace Command

variable {command : Command} {workspace : Workspace} {session after : Session} {place : Place}

/-- A command that only looks owns no file. -/
theorem not_owns_of_onlyLooks (hlooks : command.onlyLooks = true) :
    ¬command.Owns workspace place := by
  cases command with
  | build _ _ dump =>
    cases hlooks
    exact not_false
  | init _ | watch _ _ => cases hlooks
  | tokens _ | listing _ | outline _ => exact not_false

open ClassLang.Action in
/-- A command that fails has done nothing yet. -/
theorem failsUnchanged_run (command : Command) : FailsUnchanged command.run := by
  cases command with
  | init manifest => exact failsUnchanged_onFiles (Workspace.failsUnchanged_writeManifest _ _)
  | build requested target dump =>
    refine (isQuery_look _).failsUnchanged_bind fun manifest =>
      (isQuery_look _).failsUnchanged_bind fun target => ?_
    cases dump with
    | true =>
      exact (isQuery_look _).failsUnchanged_bind fun units =>
        (neverFails_forM fun _ => neverFails_modify _).failsUnchanged
    | false => exact failsUnchanged_build _ _ _
  | tokens path =>
    exact (isQuery_look _).failsUnchanged_bind fun text =>
      (isQuery_look _).failsUnchanged_bind fun tokens =>
        (neverFails_forM fun _ => neverFails_modify _).failsUnchanged
  | listing path =>
    exact (isQuery_look _).failsUnchanged_bind fun program => (neverFails_modify _).failsUnchanged
  | outline path =>
    exact (isQuery_look _).failsUnchanged_bind fun program =>
      (neverFails_forM fun _ => neverFails_modify _).failsUnchanged
  | watch requested target =>
    exact (isQuery_look _).failsUnchanged_bind fun manifest =>
      (isQuery_look _).failsUnchanged_bind fun target =>
        (neverFails_tryCatch fun _ => neverFails_modify _).failsUnchanged

/-- All that a command can do to files: look, or write one file that it owns. -/
theorem run_eq_ok {value : Unit} (hrun : command.run session = .ok value after) :
    after.workspace = session.workspace ∨
      ∃ place contents, command.Owns session.workspace place ∧
        after.workspace = session.workspace.withFile place contents := by
  cases command with
  | init manifest =>
    obtain ⟨written, hwrite, rfl⟩ := Action.onFiles_eq_ok_iff.mp hrun
    obtain ⟨place, hplace, -, hwritten⟩ :=
      Workspace.writeFile_eq_ok_iff.mp (Workspace.writeManifest_eq_ok_iff.mp hwrite).2
    exact .inr ⟨place, _, Workspace.eq_of_resolve_manifest hplace, hwritten⟩
  | build requested target dump =>
    obtain ⟨manifest, hmanifest, hnamed⟩ := Action.look_bind_eq_ok_iff.mp hrun
    obtain ⟨target, -, hrest⟩ := Action.look_bind_eq_ok_iff.mp hnamed
    clear hnamed
    cases dump with
    | true =>
      obtain ⟨units, -, hprint⟩ := Action.look_bind_eq_ok_iff.mp hrest
      exact .inl (Action.keepsFiles_forM (fun _ => Action.keepsFiles_print _) hprint)
    | false => exact .inr (Action.hasOutput_of_build_eq_ok hmanifest hrest)
  | tokens path =>
    obtain ⟨text, -, hrest⟩ := Action.look_bind_eq_ok_iff.mp hrun
    obtain ⟨tokens, -, hprint⟩ := Action.look_bind_eq_ok_iff.mp hrest
    exact .inl (Action.keepsFiles_forM (fun _ => Action.keepsFiles_print _) hprint)
  | listing path =>
    obtain ⟨program, -, hprint⟩ := Action.look_bind_eq_ok_iff.mp hrun
    exact .inl (Action.keepsFiles_print _ hprint)
  | outline path =>
    obtain ⟨program, -, hprint⟩ := Action.look_bind_eq_ok_iff.mp hrun
    exact .inl (Action.keepsFiles_forM (fun _ => Action.keepsFiles_print _) hprint)
  | watch requested target =>
    obtain ⟨manifest, hmanifest, hnamed⟩ := Action.look_bind_eq_ok_iff.mp hrun
    obtain ⟨target, -, hrest⟩ := Action.look_bind_eq_ok_iff.mp hnamed
    rcases step_tryCatch_eq_ok_iff.mp hrest with hbuild | ⟨error, middle, hfails, hprint⟩
    · exact .inr (Action.hasOutput_of_build_eq_ok hmanifest hbuild)
    · -- The build that failed has left no trace, and only its error is printed.
      rw [Action.failsUnchanged_build _ _ _ hfails] at hprint
      exact .inl (Action.keepsFiles_print _ hprint)

end Command

/-! ## Runs -/

namespace Workspace

/-- Arguments that are refused, or a command that fails or succeeds. -/
theorem runProgram_cases (workspace : Workspace) (arguments : List String) :
    (∃ error, Command.ofArguments arguments = .error error ∧
      workspace.runProgram arguments = ⟨.start workspace, .refused error⟩) ∨
    ∃ command, Command.ofArguments arguments = .ok command ∧
      ((∃ error session, command.run (.start workspace) = .error error session ∧
          workspace.runProgram arguments = ⟨session, .failed error⟩) ∨
        ∃ session, command.run (.start workspace) = .ok () session ∧
          workspace.runProgram arguments = ⟨session, .done⟩) := by
  unfold runProgram
  cases hcommand : Command.ofArguments arguments with
  | error error => exact .inl ⟨error, rfl, rfl⟩
  | ok command =>
    refine .inr ⟨command, rfl, ?_⟩
    cases hrun : command.run (.start workspace) with
    | error error session => exact .inl ⟨error, session, rfl, by simp only [hrun]⟩
    | ok value session => exact .inr ⟨session, rfl, by simp only [hrun]⟩

variable {workspace : Workspace} {arguments : List String} {session : Session} {place : Place}

/-- A run that ends as it started builds nothing. -/
theorem runFrame_start {ending : Ending}
    (hcode : ∀ command, Command.ofArguments arguments = .ok command → ending.exitCode ≠ 0) :
    workspace.RunFrame arguments ⟨.start workspace, ending⟩ where
  failed _ := ⟨rfl, rfl, String.empty_append⟩
  refused _ _ := rfl
  looked _ _ _ := rfl
  directory := rfl
  owned _ _ _ _ := rfl
  built _ _ hcommand hzero := absurd hzero (hcode _ hcommand)

/-- A run that succeeds has looked, or has written the one file that it owns. -/
theorem runFrame_done {command : Command} (hcommand : Command.ofArguments arguments = .ok command)
    (hrun : command.run (.start workspace) = .ok () session) :
    workspace.RunFrame arguments ⟨session, .done⟩ where
  failed hcode := absurd rfl hcode
  refused error herror := by
    rw [hcommand] at herror
    cases herror
  looked other hother hlooks := by
    cases hcommand.symm.trans hother
    rcases Command.run_eq_ok hrun with hsame | ⟨place, contents, howns, -⟩
    · exact hsame
    · exact absurd howns (Command.not_owns_of_onlyLooks hlooks)
  directory := by
    rcases Command.run_eq_ok hrun with hsame | ⟨place, contents, -, hwritten⟩
    · exact congrArg Workspace.directory hsame
    · rw [hwritten]
      rfl
  owned other hother place hplace := by
    cases hcommand.symm.trans hother
    rcases Command.run_eq_ok hrun with hsame | ⟨owned, contents, howns, hwritten⟩
    · exact congrArg (·.tree.find? place) hsame
    · rw [hwritten]
      apply FileTree.find?_set_of_ne
      rintro rfl
      exact hplace howns
  built requested name hother _ := by
    cases hcommand.symm.trans hother
    obtain ⟨manifest, hmanifest, hnamed⟩ := Action.look_bind_eq_ok_iff.mp hrun
    obtain ⟨target, htarget, hbuild⟩ := Action.look_bind_eq_ok_iff.mp hnamed
    obtain ⟨-, units, hunits, hwrite⟩ := build_eq_ok_iff.mp (Action.build_eq_ok hbuild)
    obtain ⟨place, hplace, hdirectory, hwritten⟩ := writeFile_eq_ok_iff.mp hwrite
    refine ⟨manifest, target, units, hmanifest, htarget, hunits, ?_⟩
    rw [hwritten]
    exact readFile_withFile_self hplace hdirectory

/-- One run keeps to its frame. -/
theorem runFrame_runProgram (workspace : Workspace) (arguments : List String) :
    workspace.RunFrame arguments (workspace.runProgram arguments) := by
  obtain ⟨error, herror, hrun⟩ | ⟨command, hcommand, hcases⟩ := runProgram_cases workspace arguments
  · rw [hrun]
    refine runFrame_start ?_
    intro command hcommand
    rw [herror] at hcommand
    cases hcommand
  · obtain ⟨error, session, hfails, hrun⟩ | ⟨session, hdone, hrun⟩ := hcases
    · rw [hrun, command.failsUnchanged_run hfails]
      exact runFrame_start fun _ _ => Nat.one_ne_zero
    · rw [hrun]
      exact runFrame_done hcommand hdone

theorem afterRuns_append_singleton (workspace : Workspace) (runs : List (List String))
    (arguments : List String) :
    workspace.afterRuns (runs ++ [arguments]) =
      ((workspace.afterRuns runs).runProgram arguments).session.workspace := by
  simp [afterRuns]

/-- What differs after some runs is owned by one of them. -/
theorem exists_owns_of_find?_ne (runs : List (List String))
    (hne : (workspace.afterRuns runs).tree.find? place ≠ workspace.tree.find? place) :
    ∃ earlier arguments later command, runs = earlier ++ arguments :: later ∧
      Command.ofArguments arguments = .ok command ∧
      command.Owns (workspace.afterRuns earlier) place := by
  induction runs using List.reverseRecOn with
  | nil => exact absurd rfl hne
  | append_singleton runs arguments ih =>
    by_cases hlast : (workspace.afterRuns (runs ++ [arguments])).tree.find? place =
        (workspace.afterRuns runs).tree.find? place
    · rw [hlast] at hne
      obtain ⟨earlier, run, later, command, rfl, hcommand, howns⟩ := ih hne
      exact ⟨earlier, run, later ++ [arguments], command, by simp, hcommand, howns⟩
    · have hframe := runFrame_runProgram (workspace.afterRuns runs) arguments
      rw [afterRuns_append_singleton] at hlast
      cases hcommand : Command.ofArguments arguments with
      | error error =>
        rw [hframe.refused error hcommand] at hlast
        exact absurd rfl hlast
      | ok command =>
        refine ⟨runs, arguments, [], command, rfl, hcommand, ?_⟩
        by_contra howns
        exact hlast (hframe.owned command hcommand place howns)

end Workspace

/-- After any runs, the next one keeps to its frame, and a place that differs from what
it was is owned by one of them. -/
theorem runs_change_only_what_they_own (workspace : Workspace) (runs : List (List String))
    (arguments : List String) :
    (workspace.afterRuns runs).RunFrame arguments
        ((workspace.afterRuns runs).runProgram arguments) ∧
      ∀ place, (workspace.afterRuns runs).tree.find? place ≠ workspace.tree.find? place →
        ∃ earlier arguments later command, runs = earlier ++ arguments :: later ∧
          Command.ofArguments arguments = .ok command ∧
          command.Owns (workspace.afterRuns earlier) place := by
  constructor
  · exact Workspace.runFrame_runProgram (workspace.afterRuns runs) arguments
  · exact fun place => Workspace.exists_owns_of_find?_ne runs

end ClassLang
