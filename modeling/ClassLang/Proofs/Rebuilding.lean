import ClassLang.Proofs.Runs
import ClassLang.Proofs.Schedules

/-!
# Building again

A build changes no file but its output.  The output has an extension of its own, so the
next build finds the same sources and writes the same output.  That is different for a
module whose sources have the extension of the output.  If such a module has its output
among its sources, the output may even replace one of them, and the next build takes it
for a source and fails, since the comment at its head starts no program.
-/

namespace ClassLang

open Grammar

/-! ## Texts that are no programs -/

/-- A program starts with a class or a statement. -/
theorem Grammar.IsProgram.starts {lexemes : List Lexeme} {program : Program}
    (hprogram : IsProgram lexemes program) :
    StartsWith (.classWord :: statementKinds) lexemes := by
  by_cases hclasses : program.classes = []
  · obtain ⟨hdefining, hstmt, _⟩ := hprogram
    cases hclasses
    cases hdefining
    exact (hstmt.starts.append _).mono (List.subset_cons_self _ _)
  · exact (hprogram.starts_of_classes hclasses).mono (by simp)

/-- No program starts with a slash. -/
theorem Program.ofSource_ne_ok_of_slash {source file : String}
    (hslash : source.toList.head? = some '/') (program : Program) :
    Program.ofSource source file ≠ .ok program := by
  intro heq
  obtain ⟨rest, hsource⟩ := List.head?_eq_some_iff.mp hslash
  obtain ⟨lexemes, hscans, hprogram⟩ := Program.ofSource_eq_ok_iff.mp heq
  obtain ⟨first, others, rfl, hkind⟩ := hprogram.starts
  rw [hsource] at hscans
  cases hscans with
  | blank hblank _ => exact absurd hblank (by decide)
  | lexeme hnext _ =>
    have hfirst : Lexeme.next? ('/' :: rest) = some (⟨.slash, ['/']⟩, rest) := rfl
    cases hfirst.symm.trans hnext
    exact absurd hkind (by decide)

theorem Text.decode_toUTF8 (text : String) : Text.decode text.toUTF8 = text := by
  rw [decode, fromUTF8?_toUTF8]

theorem Text.head?_append {left : String} {c : Char} (hhead : left.toList.head? = some c)
    (right : String) : (left ++ right).toList.head? = some c := by
  rw [String.toList_append, List.head?_append, hhead]
  rfl

/-! ## Where the output goes -/

namespace Manifest

/-- A linked script starts with a comment. -/
theorem head?_link (manifest : Manifest) (units : List UnitScript) :
    (manifest.link units).toList.head? = some '/' := by
  have hhead : "// Code generated by classjs from ".toList.head? = some '/' := by decide
  exact Text.head?_append (Text.head?_append (Text.head?_append (Text.head?_append hhead _) _) _) _

theorem extension_withScriptExtension (path : String) :
    Path.extension (withScriptExtension path) = scriptExtension := by
  unfold withScriptExtension
  split
  · next heq => exact beq_iff_eq.mp heq
  · simp [Path.extension, scriptExtension]

theorem isName_of_extension {name : String} (hslash : '/' ∉ name.toList)
    (hextension : Path.extension name = scriptExtension) : Path.IsName name where
  ne_empty := by rintro rfl; exact absurd hextension (by decide)
  ne_here := by rintro rfl; exact absurd hextension (by decide)
  ne_above := by rintro rfl; exact absurd hextension (by decide)
  slash := hslash

/-- The last name of a path to a script. -/
theorem exists_names_of_extension {path : String}
    (hextension : Path.extension path = scriptExtension) :
    ∃ front name, Path.names path = front ++ [name] ∧ Path.IsName name ∧
      Path.extension name = scriptExtension := by
  obtain ⟨front, name, hnames⟩ := Path.exists_names_eq path
  have hname : Path.extension name = scriptExtension :=
    (Path.extension_of_names hnames).symm.trans hextension
  have hslash : '/' ∉ name.toList := by
    have hmem : name ∈ Path.names path := hnames ▸ List.mem_append_right front List.mem_cons_self
    exact Path.slash_not_mem_of_mem_names hmem
  exact ⟨front, name, hnames, isName_of_extension hslash hname, hname⟩

theorem extension_clean {path : String} (hextension : Path.extension path = scriptExtension) :
    Path.extension (Path.clean path) = scriptExtension := by
  obtain ⟨front, name, hnames, hname, hscript⟩ := exists_names_of_extension hextension
  have hkept := Path.keptNames_of_names hnames hname
  have hclean := (Path.names_clean (hkept ▸ List.cons_ne_nil _ _)).2
  rw [hkept, List.reverse_cons, ← List.append_assoc] at hclean
  exact (Path.extension_of_names hclean).trans hscript

/-- The output always has the extension of a script. -/
theorem extension_outputPath (manifest : Manifest) (directory requested : String) :
    Path.extension (manifest.outputPath directory requested) = scriptExtension := by
  have hfile := extension_withScriptExtension
    (if requested.isEmpty then manifest.package else requested)
  unfold outputPath
  generalize withScriptExtension _ = file at hfile
  dsimp only
  have hne : file ≠ "" := by
    rintro rfl
    exact absurd hfile (by decide)
  split
  · exact hfile
  · by_cases hdirectory : directory = ""
    · have hjoin : Path.join [directory, file] = Path.clean file := by
        simp [Path.join, hdirectory, hne]
      rw [hjoin]
      exact extension_clean hfile
    · have hjoin : Path.join [directory, file] = Path.clean (directory ++ "/" ++ file) := by
        simp [Path.join, hdirectory, hne]
      rw [hjoin]
      exact extension_clean ((Path.extension_append directory file).trans hfile)

end Manifest

namespace Workspace

variable {workspace : Workspace} {directory path : String} {place : Place}

/-- A script is written to a name with its extension. -/
theorem exists_name_of_resolve (hresolve : workspace.resolve path = .ok place)
    (hextension : Path.extension path = Manifest.scriptExtension) :
    ∃ (parent : Place) (name : Path.Name), place = parent ++ [name] ∧
      Path.extension name.text = Manifest.scriptExtension := by
  obtain ⟨-, -, hfollow⟩ := resolve_eq_ok_iff.mp hresolve
  obtain ⟨front, name, hnames, hname, hscript⟩ := Manifest.exists_names_of_extension hextension
  rw [hnames, follow_append] at hfollow
  obtain ⟨parent, -, hlast⟩ := bind_eq_ok_iff.mp hfollow
  obtain ⟨-, ⟨hhere, -⟩ | ⟨habove, -⟩ | ⟨inside, rfl, hplace⟩⟩ := follow_name_eq_ok_iff.mp hlast
  · exact absurd hhere (not_or.mpr ⟨hname.ne_empty, hname.ne_here⟩)
  · exact absurd habove hname.ne_above
  · exact ⟨parent, inside, hplace, hscript⟩

end Workspace

/-! ## Sources -/

/-- The name of what stands in a tree, if it is a source in the given directory. -/
def FileTree.sourceName? (place : Place) (extension : String) :
    Place × Entry → Option Path.Name
  | (_, .directory) => none
  | (other, .file _) => other.getLast?.filter fun name =>
    other.dropLast == place && Path.extension name.text == extension

/-- A source is a file in the directory itself that has the extension. -/
theorem FileTree.sourceName?_eq_some_iff {place : Place} {extension : String} {name : Path.Name}
    {item : Place × Entry} :
    sourceName? place extension item = some name ↔
      (∃ contents, item = (place ++ [name], .file contents)) ∧
        Path.extension name.text = extension := by
  obtain ⟨other, entry⟩ := item
  cases entry with
  | directory => simp [sourceName?]
  | file contents =>
    simp only [sourceName?, Option.filter_eq_some_iff, Bool.and_eq_true, beq_iff_eq]
    constructor
    · rintro ⟨hlast, rfl, hextension⟩
      exact ⟨⟨contents, by rw [List.dropLast_append_getLast? name hlast]⟩, hextension⟩
    · rintro ⟨⟨_, ⟨⟩⟩, hextension⟩
      exact ⟨List.getLast?_concat, List.dropLast_concat, hextension⟩

namespace Workspace

variable {workspace : Workspace} {directory extension : String} {place : Place}

/-- The paths of the sources of a directory at a place. -/
def sourcePaths (workspace : Workspace) (place : Place) (directory extension : String) :
    List String :=
  ((workspace.tree.entries.filterMap (FileTree.sourceName? place extension)).map fun name =>
    Path.join [directory, name.text]).mergeSort fun left right => left ≤ right

theorem fileNames_eq_ok_iff {names : List String} :
    workspace.fileNames directory = .ok names ↔
      ∃ place, workspace.resolve directory = .ok place ∧
        workspace.tree.find? place = some .directory ∧
        names = (workspace.tree.children place).filterMap fun (name, entry) =>
          match entry with
          | .directory => none
          | .file _ => some name.text := by
  rw [fileNames, bind_eq_ok_iff]
  refine exists_congr fun place => and_congr mapError_eq_ok_iff ?_
  cases workspace.tree.find? place with
  | none => simp
  | some entry =>
    cases entry with
    | file contents => simp
    | directory =>
      rw [and_iff_right rfl]
      constructor
      · rintro ⟨⟩
        rfl
      · rintro rfl
        rfl

/-- The sources can be found if the path leads to a directory. -/
theorem sources_eq_ok_iff {paths : List String} :
    workspace.sources directory extension = .ok paths ↔
      ∃ place, workspace.resolve directory = .ok place ∧
        workspace.tree.find? place = some .directory ∧
        paths = workspace.sourcePaths place directory extension := by
  have hnames : ∀ place, (((workspace.tree.children place).filterMap fun (name, entry) =>
        match entry with
        | .directory => none
        | .file _ => some name.text).filter fun name => Path.extension name == extension) =
      (workspace.tree.entries.filterMap (FileTree.sourceName? place extension)).map
        Path.Name.text := by
    intro place
    rw [FileTree.children, List.filterMap_filterMap, List.filter_filterMap, List.map_filterMap]
    congr 1
    funext item
    obtain ⟨other, entry⟩ := item
    cases hlast : other.getLast? <;> cases entry <;>
      cases hplace : other.dropLast == place <;>
      simp [FileTree.sourceName?, Option.filter, hlast, hplace]
  simp only [sources, bind_eq_ok_iff, mapError_eq_ok_iff, fileNames_eq_ok_iff]
  constructor
  · rintro ⟨names, ⟨place, hplace, hfind, rfl⟩, ⟨⟩⟩
    refine ⟨place, hplace, hfind, ?_⟩
    rw [sourcePaths, hnames, List.map_map]
    rfl
  · rintro ⟨place, hplace, hfind, rfl⟩
    refine ⟨_, ⟨place, hplace, hfind, rfl⟩, ?_⟩
    rw [sourcePaths, hnames, List.map_map]
    rfl

theorem mem_sourcePaths {path : String} :
    path ∈ workspace.sourcePaths place directory extension ↔
      ∃ name contents, (place ++ [name], .file contents) ∈ workspace.tree.entries ∧
        Path.extension name.text = extension ∧ path = Path.join [directory, name.text] := by
  simp only [sourcePaths, List.mem_mergeSort, List.mem_map, List.mem_filterMap,
    FileTree.sourceName?_eq_some_iff]
  constructor
  · rintro ⟨name, ⟨item, hitem, ⟨contents, rfl⟩, hextension⟩, rfl⟩
    exact ⟨name, contents, hitem, hextension, rfl⟩
  · rintro ⟨name, contents, hitem, hextension, rfl⟩
    exact ⟨name, ⟨_, hitem, ⟨contents, rfl⟩, hextension⟩, rfl⟩

/-- Writing a file that is no source leaves the sources as they are. -/
theorem sourcePaths_withFile {output : Place} {contents : ByteArray}
    (houtput : ∀ name : Path.Name, Path.extension name.text = extension →
      output ≠ place ++ [name]) :
    (workspace.withFile output contents).sourcePaths place directory extension =
      workspace.sourcePaths place directory extension := by
  have hnone : ∀ entry, FileTree.sourceName? place extension (output, entry) = none := by
    intro entry
    rw [Option.eq_none_iff_forall_ne_some]
    intro name heq
    obtain ⟨⟨_, ⟨⟩⟩, hextension⟩ := FileTree.sourceName?_eq_some_iff.mp heq
    exact houtput name hextension rfl
  have hentries : (workspace.withFile output contents).tree.entries.filterMap
      (FileTree.sourceName? place extension) =
      workspace.tree.entries.filterMap (FileTree.sourceName? place extension) := by
    rw [withFile, FileTree.set, List.filterMap_cons_none (hnone _), List.filterMap_filter]
    congr 1
    funext item
    obtain ⟨other, entry⟩ := item
    split
    · rfl
    · next hother =>
      have heq : other = output := by simpa using hother
      rw [heq, hnone]
  rw [sourcePaths, hentries, sourcePaths]

/-! ## Units -/

variable {target : Target} {paths : List String} {units : List CompiledUnit}

theorem isOutcome_compileFiles (workspace : Workspace) (target : Target) (extension : String)
    (paths : List String) :
    workspace.IsOutcome target extension paths (workspace.compileFiles target extension paths) :=
  (groupFacts_runTasks _).isOutcome (isEnded_runTasks TaskGroup.turnsLeft_le_count_turnsInOrder)

theorem exists_unit_of_mem {path : String} (hpath : path ∈ paths)
    (hunits : List.Forall₂
      (fun path unit => workspace.compileFile target extension path = .ok unit) paths units) :
    ∃ unit, workspace.compileFile target extension path = .ok unit := by
  obtain ⟨index, rfl⟩ := List.get_of_mem hpath
  exact ⟨_, hunits.get index.isLt (hunits.length_eq ▸ index.isLt)⟩

/-- Files can be compiled if each of them can, and the units are in the order of the
files. -/
theorem compileFiles_eq_ok_iff :
    workspace.compileFiles target extension paths = .ok units ↔
      List.Forall₂ (fun path unit => workspace.compileFile target extension path = .ok unit)
        paths units := by
  have houtcome := isOutcome_compileFiles workspace target extension paths
  constructor
  · intro heq
    have hcompiles : ∀ path ∈ paths,
        ∃ unit, workspace.compileFile target extension path = .ok unit := by
      intro path hpath
      cases hunit : workspace.compileFile target extension path with
      | ok unit => exact ⟨unit, rfl⟩
      | error error =>
        obtain ⟨_, hfails, -⟩ := houtcome.error ⟨path, hpath, error, hunit⟩
        cases heq.symm.trans hfails
    obtain ⟨_, hresult, hunits⟩ := houtcome.units hcompiles
    cases heq.symm.trans hresult
    exact hunits
  · intro hunits
    obtain ⟨others, hresult, hothers⟩ :=
      houtcome.units fun _ hpath => exists_unit_of_mem hpath hunits
    have hunique : others = units := by
      refine Relator.RightUnique.forall₂ ?_ hothers hunits
      intro path left right hleft hright
      exact Except.ok.inj (hleft.symm.trans hright)
    rw [hresult, hunique]

/-- The error of a group is that of one of its files. -/
theorem exists_of_compileFiles_eq_error {error : BuildError}
    (heq : workspace.compileFiles target extension paths = .error error) :
    ∃ path ∈ paths, workspace.compileFile target extension path = .error error := by
  have houtcome := isOutcome_compileFiles workspace target extension paths
  by_cases hcompiles : ∀ path ∈ paths,
      ∃ unit, workspace.compileFile target extension path = .ok unit
  · obtain ⟨units, hunits, -⟩ := houtcome.units hcompiles
    cases heq.symm.trans hunits
  · push Not at hcompiles
    obtain ⟨path, hpath, hnone⟩ := hcompiles
    have hfails : ∃ error, workspace.compileFile target extension path = .error error := by
      cases hunit : workspace.compileFile target extension path with
      | error error => exact ⟨error, rfl⟩
      | ok unit => exact absurd hunit (hnone unit)
    obtain ⟨kept, hkept, -, hcause⟩ := houtcome.error ⟨path, hpath, hfails⟩
    cases heq.symm.trans hkept
    exact hcause

/-- A directory can be compiled if there are sources in it and each of them can. -/
theorem compileDirectory_eq_ok_iff {manifest : Manifest} :
    workspace.compileDirectory target directory manifest = .ok units ↔
      ∃ place, workspace.resolve directory = .ok place ∧
        workspace.tree.find? place = some .directory ∧
        workspace.sourcePaths place directory manifest.sourceExtension ≠ [] ∧
        List.Forall₂
          (fun path unit => workspace.compileFile target manifest.sourceExtension path = .ok unit)
          (workspace.sourcePaths place directory manifest.sourceExtension) units := by
  have hpaths : ∀ paths : List String,
      (do if paths.isEmpty then throw (.noSources manifest.sourceExtension directory)
          workspace.compileFiles target manifest.sourceExtension paths :
        Except BuildError (List CompiledUnit)) = .ok units ↔
      paths ≠ [] ∧ List.Forall₂
        (fun path unit => workspace.compileFile target manifest.sourceExtension path = .ok unit)
        paths units := by
    intro paths
    rw [← compileFiles_eq_ok_iff]
    cases paths with
    | nil =>
      apply iff_of_false
      · rintro ⟨⟩
      · exact fun hne => hne.1 rfl
    | cons path paths => exact (and_iff_right (List.cons_ne_nil path paths)).symm
  rw [compileDirectory, bind_eq_ok_iff]
  constructor
  · rintro ⟨paths, hsources, hrest⟩
    obtain ⟨place, hplace, hfind, rfl⟩ := sources_eq_ok_iff.mp hsources
    exact ⟨place, hplace, hfind, (hpaths _).mp hrest⟩
  · rintro ⟨place, hplace, hfind, hrest⟩
    exact ⟨_, sources_eq_ok_iff.mpr ⟨place, hplace, hfind, rfl⟩, (hpaths _).mpr hrest⟩

/-- What a file is compiled to depends on its contents alone. -/
theorem compileFile_congr {other : Workspace} {path : String}
    (hread : other.readFile path = workspace.readFile path) :
    other.compileFile target extension path = workspace.compileFile target extension path := by
  rw [compileFile, compileFile, readSource, readSource, hread]

theorem exists_contents_of_compileFile {path : String} {unit : CompiledUnit}
    (hunit : workspace.compileFile target extension path = .ok unit) :
    ∃ contents program, workspace.readFile path = .ok contents ∧
      Program.ofSource (Text.decode contents) (Path.base path) = .ok program := by
  obtain ⟨contents, hcontents, hrest⟩ := bind_eq_ok_iff.mp hunit
  obtain ⟨program, hprogram, -⟩ := bind_eq_ok_iff.mp hrest
  refine ⟨contents, program, ?_, mapError_eq_ok_iff.mp hprogram⟩
  rw [readSource] at hcontents
  split at hcontents
  · exact mapError_eq_ok_iff.mp hcontents
  · cases hcontents

/-! ## Two builds -/

/-- The path leads into the module's directory, and files there with its extension
count as sources. -/
def IsAmongSources (workspace : Workspace) (directory : String) (manifest : Manifest)
    (path : String) : Prop :=
  manifest.sourceExtension = Manifest.scriptExtension ∧
    ∃ place name, workspace.resolve directory = .ok place ∧
      workspace.resolve path = .ok (place ++ [name])

variable {built : Workspace} {requested path : String} {manifest : Manifest}

section Output

variable {output : Place} {script : ByteArray} {source : String}

/-- A source that can be compiled reads as before after a file is written that is not
the source itself. -/
theorem readFile_withFile_of_unit (hfile : workspace.tree.find? output ≠ some .directory)
    (hunit : ∃ unit, workspace.compileFile target extension source = .ok unit)
    (hne : workspace.resolve source ≠ .ok output) :
    (workspace.withFile output script).readFile source = workspace.readFile source := by
  obtain ⟨unit, hunit⟩ := hunit
  obtain ⟨found, -, hread, -⟩ := exists_contents_of_compileFile hunit
  rw [hread]
  exact readFile_withFile_of_ne hfile hread hne

/-- No source leads to a file that is no source. -/
theorem resolve_source_ne (hplace : workspace.resolve directory = .ok place)
    (houtput : ∀ name : Path.Name, Path.extension name.text = extension →
      output ≠ place ++ [name])
    (hsource : source ∈ workspace.sourcePaths place directory extension) :
    workspace.resolve source ≠ .ok output := by
  obtain ⟨name, contents, -, hname, rfl⟩ := mem_sourcePaths.mp hsource
  intro hresolve
  exact houtput name hname (eq_of_resolve_join hplace hresolve)

/-- What is compiled in a directory depends on its sources alone. -/
theorem compileDirectory_withFile (hplace : workspace.resolve directory = .ok place)
    (hfile : workspace.tree.find? output ≠ some .directory)
    (houtput : ∀ name : Path.Name, Path.extension name.text = manifest.sourceExtension →
      output ≠ place ++ [name])
    (hunits : workspace.compileDirectory target directory manifest = .ok units) :
    (workspace.withFile output script).compileDirectory target directory manifest =
      .ok units := by
  obtain ⟨other, hother, hfind, hne, hcompiled⟩ := compileDirectory_eq_ok_iff.mp hunits
  cases hplace.symm.trans hother
  have hreads : ∀ source ∈ workspace.sourcePaths place directory manifest.sourceExtension,
      (workspace.withFile output script).readFile source = workspace.readFile source :=
    fun source hsource => readFile_withFile_of_unit hfile (exists_unit_of_mem hsource hcompiled)
      (resolve_source_ne hplace houtput hsource)
  refine compileDirectory_eq_ok_iff.mpr
    ⟨place, resolve_withFile hfile hplace, find?_withFile_directory hfile hfind, ?_, ?_⟩
  · rw [sourcePaths_withFile houtput]
    exact hne
  · rw [sourcePaths_withFile houtput]
    refine ((List.forall₂_and_left _ _).mpr ⟨hreads, hcompiled⟩).imp ?_
    rintro source unit ⟨hread, hunit⟩
    rw [compileFile_congr hread]
    exact hunit

end Output

section Build

variable (hbuild : build target directory requested manifest workspace = .ok path built)

include hbuild

/-- A build leaves every source as it is, but for the output itself. -/
theorem readFile_source_of_build
    (hpaths : workspace.sources directory manifest.sourceExtension = .ok paths) {source : String}
    (hsource : source ∈ paths) (hne : workspace.resolve source ≠ workspace.resolve path) :
    built.readFile source = workspace.readFile source := by
  obtain ⟨rfl, units, hunits, hwrite⟩ := build_eq_ok_iff.mp hbuild
  obtain ⟨output, houtput, hfile, rfl⟩ := writeFile_eq_ok_iff.mp hwrite
  obtain ⟨place, hplace, -, -, hcompiled⟩ := compileDirectory_eq_ok_iff.mp hunits
  obtain ⟨other, hother, -, rfl⟩ := sources_eq_ok_iff.mp hpaths
  cases hplace.symm.trans hother
  rw [houtput] at hne
  exact readFile_withFile_of_unit hfile (exists_unit_of_mem hsource hcompiled) hne

/-- No source has the place of an output that is not among the sources. -/
theorem ne_source_of_not_isAmongSources
    (hapart : ¬workspace.IsAmongSources directory manifest path) {output : Place}
    (houtput : workspace.resolve path = .ok output)
    (hplace : workspace.resolve directory = .ok place) (name : Path.Name)
    (hname : Path.extension name.text = manifest.sourceExtension) :
    output ≠ place ++ [name] := by
  rintro rfl
  obtain ⟨rfl, -⟩ := build_eq_ok_iff.mp hbuild
  obtain ⟨parent, last, heq, hlast⟩ :=
    exists_name_of_resolve houtput (manifest.extension_outputPath directory requested)
  cases List.singleton_inj.mp (List.append_inj' heq rfl).2
  exact hapart ⟨hname.symm.trans hlast, place, name, hplace, houtput⟩

/-- An output that is no source leaves the next build as it was. -/
theorem build_again (hapart : ¬workspace.IsAmongSources directory manifest path) :
    (∀ paths, workspace.sources directory manifest.sourceExtension = .ok paths →
      ∀ source ∈ paths, built.readFile source = workspace.readFile source) ∧
      build target directory requested manifest built = .ok path built := by
  obtain ⟨rfl, units, hunits, hwrite⟩ := build_eq_ok_iff.mp hbuild
  obtain ⟨output, houtput, hfile, rfl⟩ := writeFile_eq_ok_iff.mp hwrite
  obtain ⟨place, hplace, -, -, hcompiled⟩ := compileDirectory_eq_ok_iff.mp hunits
  have hnoSource := ne_source_of_not_isAmongSources hbuild hapart houtput hplace
  generalize hscript :
    (manifest.link (units.map CompiledUnit.toUnitScript)).toUTF8 = script at hwrite hbuild
  constructor
  · intro paths hpaths source hsource
    refine readFile_source_of_build hbuild hpaths hsource ?_
    obtain ⟨other, hother, -, rfl⟩ := sources_eq_ok_iff.mp hpaths
    cases hplace.symm.trans hother
    rw [houtput]
    exact resolve_source_ne hplace hnoSource hsource
  · refine build_eq_ok_iff.mpr
      ⟨rfl, units, compileDirectory_withFile hplace hfile hnoSource hunits, ?_⟩
    rw [hscript]
    refine writeFile_eq_ok_iff.mpr ⟨_, resolve_withFile hfile houtput, ?_, ?_⟩
    · simp [find?_withFile_self hfile]
    · rw [withFile_withFile]

/-- An output among the sources is no source that compiles, so the next build fails. -/
theorem exists_error_of_build_again (hamong : workspace.IsAmongSources directory manifest path) :
    ∃ error, build target directory requested manifest built = .error error built := by
  obtain ⟨rfl, units, hunits, hwrite⟩ := build_eq_ok_iff.mp hbuild
  obtain ⟨output, houtput, hfile, rfl⟩ := writeFile_eq_ok_iff.mp hwrite
  obtain ⟨hextension, place, name, hplace, hresolve⟩ := hamong
  cases houtput.symm.trans hresolve
  obtain ⟨parent, last, heq, hlast⟩ :=
    exists_name_of_resolve houtput (manifest.extension_outputPath directory requested)
  cases List.singleton_inj.mp (List.append_inj' heq rfl).2
  generalize hscript :
    (manifest.link (units.map CompiledUnit.toUnitScript)) = script at hwrite
  cases hagain : build target directory requested manifest
      (workspace.withFile (place ++ [name]) script.toUTF8) with
  | error error reached => exact ⟨error, by rw [failsUnchanged_build _ _ _ _ hagain]⟩
  | ok again reached =>
    obtain ⟨-, others, hothers, -⟩ := build_eq_ok_iff.mp hagain
    obtain ⟨other, hother, -, -, hcompiled⟩ := compileDirectory_eq_ok_iff.mp hothers
    cases hother.symm.trans (resolve_withFile hfile hplace)
    have hsource : Path.join [directory, name.text] ∈
        (workspace.withFile (place ++ [name]) script.toUTF8).sourcePaths place directory
          manifest.sourceExtension :=
      mem_sourcePaths.mpr
        ⟨name, script.toUTF8, List.mem_cons_self, hlast.trans hextension.symm, rfl⟩
    obtain ⟨unit, hunit⟩ := exists_unit_of_mem hsource hcompiled
    obtain ⟨contents, program, hread, hprogram⟩ := exists_contents_of_compileFile hunit
    obtain ⟨found, hfound, hcontents⟩ := readFile_eq_ok_iff.mp hread
    cases eq_of_resolve_join hother hfound
    cases (find?_withFile_self hfile).symm.trans hcontents
    rw [Text.decode_toUTF8] at hprogram
    have hslash : script.toList.head? = some '/' := by
      rw [← hscript]
      exact manifest.head?_link _
    exact absurd hprogram (Program.ofSource_ne_ok_of_slash hslash program)

end Build

end Workspace

/-- A build changes no source but one that is the output itself.  Building again gives the
same output once more and changes nothing, unless the output is among the sources.  If it
is, building again fails. -/
theorem build_repeats_unless_output_among_sources {workspace built : Workspace} {target : Target}
    {directory requested path : String} {manifest : Manifest}
    (hbuild : Workspace.build target directory requested manifest workspace = .ok path built) :
    (∀ paths, workspace.sources directory manifest.sourceExtension = .ok paths →
      ∀ source ∈ paths, workspace.resolve source ≠ workspace.resolve path →
        built.readFile source = workspace.readFile source) ∧
      (¬workspace.IsAmongSources directory manifest path →
        (∀ paths, workspace.sources directory manifest.sourceExtension = .ok paths →
          ∀ source ∈ paths, built.readFile source = workspace.readFile source) ∧
          Workspace.build target directory requested manifest built = .ok path built) ∧
      (workspace.IsAmongSources directory manifest path →
        ∃ error, Workspace.build target directory requested manifest built =
          .error error built) := by
  refine ⟨?_, Workspace.build_again hbuild, Workspace.exists_error_of_build_again hbuild⟩
  intro paths hpaths source hsource hne
  exact Workspace.readFile_source_of_build hbuild hpaths hsource hne

namespace Workspace

/-- A directory with a source that has the extension of a script, and a directory in it. -/
def scriptSource : Workspace :=
  (emptyModule.putFile "a.js" "break;".toUTF8).makeDirectory "out"

def scriptManifest : Manifest :=
  ⟨"zoo", "1.0.0", ".js"⟩

theorem sourcePaths_scriptSource :
    scriptSource.sourcePaths scriptSource.directory "." ".js" = ["a.js"] :=
  List.mergeSort_singleton "a.js"

theorem compileDirectory_scriptSource :
    scriptSource.compileDirectory .es5 "." scriptManifest =
      .ok [⟨⟨"a.js", "break;\n"⟩, ⟨[], [.breakLoop]⟩⟩] := by
  have hprogram : Program.ofSource "break;" "a.js" = .ok ⟨[], [.breakLoop]⟩ :=
    Program.ofSource_of_source_eq (by decide) (by decide) "a.js"
  have hpaths : scriptSource.sourcePaths scriptSource.directory "."
      scriptManifest.sourceExtension = ["a.js"] := sourcePaths_scriptSource
  refine compileDirectory_eq_ok_iff.mpr ⟨scriptSource.directory, rfl, rfl, ?_, ?_⟩
  · exact hpaths ▸ List.cons_ne_nil _ _
  · exact hpaths ▸ .cons (CompiledUnit.ofSource_eq_ok hprogram rfl) .nil

/-- The example can be built wherever there is no directory in the way. -/
theorem exists_build_scriptSource {requested path : String} {place : Place}
    (hpath : scriptManifest.outputPath "." requested = path)
    (hplace : scriptSource.resolve path = .ok place)
    (hfile : scriptSource.tree.find? place ≠ some .directory) :
    ∃ built script, build .es5 "." requested scriptManifest scriptSource = .ok path built ∧
      built.readFile path = .ok (String.toUTF8 script) ∧ script.toList.head? = some '/' := by
  obtain ⟨units, hunits⟩ : ∃ units, scriptSource.compileDirectory .es5 "." scriptManifest =
    .ok units := ⟨_, compileDirectory_scriptSource⟩
  refine ⟨_, scriptManifest.link (units.map CompiledUnit.toUnitScript),
    build_eq_ok_iff.mpr ⟨hpath, units, hunits, ?_⟩, readFile_withFile_self hplace hfile,
    scriptManifest.head?_link _⟩
  exact writeFile_eq_ok_iff.mpr ⟨place, hplace, hfile, rfl⟩

end Workspace

open Workspace

/-- Sources with the extension of a script do no harm while the output goes to another
directory. -/
theorem build_repeats_unless_output_among_sources_elsewhere :
    ¬scriptSource.IsAmongSources "." scriptManifest "out/zoo.js" ∧
      ∃ built,
        build .es5 "." "out/zoo" scriptManifest scriptSource = .ok "out/zoo.js" built ∧
        build .es5 "." "out/zoo" scriptManifest built = .ok "out/zoo.js" built := by
  have houtput : scriptSource.resolve "out/zoo.js" = .ok (scriptSource.placeOf "out/zoo.js") := rfl
  have hapart : ¬scriptSource.IsAmongSources "." scriptManifest "out/zoo.js" := by
    rintro ⟨-, place, name, hplace, hresolve⟩
    have hhere : scriptSource.resolve "." = .ok scriptSource.directory := rfl
    cases hhere.symm.trans hplace
    cases houtput.symm.trans hresolve
  have hpath : scriptManifest.outputPath "." "out/zoo" = "out/zoo.js" := by decide
  obtain ⟨built, -, hbuild, -⟩ := exists_build_scriptSource hpath houtput nofun
  refine ⟨hapart, built, hbuild, ?_⟩
  exact ((build_repeats_unless_output_among_sources hbuild).2.1 hapart).2

/-- A module whose sources have the extension of a script can be built, but not again.
An output that is asked for under the name of a source replaces it. -/
theorem script_source_builds_only_once :
    scriptManifest.validate = .ok () ∧
      (∃ built error,
        build .es5 "." "" scriptManifest scriptSource = .ok "zoo.js" built ∧
        build .es5 "." "" scriptManifest built = .error error built) ∧
      ∃ built error,
        scriptSource.sources "." scriptManifest.sourceExtension = .ok ["a.js"] ∧
        build .es5 "." "a" scriptManifest scriptSource = .ok "a.js" built ∧
        built.readFile "a.js" ≠ scriptSource.readFile "a.js" ∧
        build .es5 "." "a" scriptManifest built = .error error built := by
  have hvalid : scriptManifest.validate = .ok () := by decide
  refine ⟨hvalid, ?_, ?_⟩
  · have hpath : scriptManifest.outputPath "." "" = "zoo.js" := by decide
    have houtput : scriptSource.resolve "zoo.js" = .ok (scriptSource.placeOf "zoo.js") := rfl
    obtain ⟨built, -, hbuild, -⟩ := exists_build_scriptSource hpath houtput nofun
    obtain ⟨error, herror⟩ := exists_error_of_build_again hbuild
      ⟨rfl, scriptSource.directory, ⟨"zoo.js", by decide, by decide⟩, rfl, houtput⟩
    exact ⟨built, error, hbuild, herror⟩
  · have hpath : scriptManifest.outputPath "." "a" = "a.js" := by decide
    have houtput : scriptSource.resolve "a.js" = .ok (scriptSource.placeOf "a.js") := rfl
    obtain ⟨built, script, hbuild, hscript, hslash⟩ :=
      exists_build_scriptSource hpath houtput nofun
    obtain ⟨error, herror⟩ := exists_error_of_build_again hbuild
      ⟨rfl, scriptSource.directory, ⟨"a.js", by decide, by decide⟩, rfl, houtput⟩
    refine ⟨built, error, ?_, hbuild, ?_, herror⟩
    · exact sources_eq_ok_iff.mpr ⟨_, rfl, rfl, sourcePaths_scriptSource.symm⟩
    · have hsource : scriptSource.readFile "a.js" = .ok "break;".toUTF8 := rfl
      rw [hscript, hsource]
      intro heq
      have hdecode := congrArg Text.decode (Except.ok.inj heq)
      rw [Text.decode_toUTF8, Text.decode_toUTF8] at hdecode
      rw [hdecode] at hslash
      exact absurd hslash (by decide)

end ClassLang
