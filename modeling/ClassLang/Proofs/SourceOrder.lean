import ClassLang.Proofs.ByteOrder
import ClassLang.Proofs.DirectoryPaths
import Mathlib.Data.List.Nodup

/-!
# Sources in the order of their names

The paths of the sources differ only in the names of the files, so they are in the order
of these names, and each has the extension of its file.  So every source that was found
can be read, and the units of a module are linked in the order of the names.
-/

namespace ClassLang

/-! ## Sorted texts -/

namespace Text

theorem append_lt_append (front : String) {left right : String} (hlt : left < right) :
    front ++ left < front ++ right := by
  change (front ++ left).toList < (front ++ right).toList
  rw [String.toList_append, String.toList_append]
  exact List.append_left_lt hlt

section Sorting

variable {α : Type} {key : α → String} {le : α → α → Bool}

/-- Sorting by texts sorts the texts. -/
theorem pairwise_le_mergeSort (hle : ∀ left right, le left right = true ↔ key left ≤ key right)
    (items : List α) : ((items.mergeSort le).map key).Pairwise (· ≤ ·) := by
  have hsorted : (items.mergeSort le).Pairwise (fun left right => le left right = true) := by
    apply List.pairwise_mergeSort
    · intro left middle right hleft hright
      rw [hle] at hleft hright ⊢
      exact le_trans hleft hright
    · intro left right
      rw [Bool.or_eq_true, hle, hle]
      exact le_total (key left) (key right)
  rw [List.pairwise_map]
  exact hsorted.imp fun hlt => (hle _ _).mp hlt

/-- If the texts are different, they come out in strictly increasing order. -/
theorem pairwise_lt_mergeSort (hle : ∀ left right, le left right = true ↔ key left ≤ key right)
    {items : List α} (hnodup : (items.map key).Nodup) :
    ((items.mergeSort le).map key).Pairwise (· < ·) := by
  have hdistinct : ((items.mergeSort le).map key).Nodup :=
    ((List.mergeSort_perm items le).map key).nodup_iff.mpr hnodup
  apply ((pairwise_le_mergeSort hle items).and hdistinct).imp
  exact fun hboth => lt_of_le_of_ne hboth.1 hboth.2

/-- Sorting finds the only increasing order. -/
theorem mergeSort_eq {le : String → String → Bool} {texts sorted : List String}
    (hle : ∀ left right, le left right = true ↔ left ≤ right)
    (hperm : sorted.Perm texts) (hincreasing : sorted.Pairwise (· < ·)) :
    texts.mergeSort le = sorted := by
  have hsorted := pairwise_le_mergeSort  hle texts
  rw [List.map_id'] at hsorted
  apply ((List.mergeSort_perm texts le).trans hperm.symm).eq_of_pairwise _ hsorted
    (hincreasing.imp le_of_lt)
  exact fun _ _ _ _ => le_antisymm

end Sorting

end Text

/-! ## Names in a directory -/

namespace FileTree

variable {tree : FileTree} {place : Place} {name : Path.Name} {entry : Entry}

/-- What is listed in a directory stands there in the tree. -/
theorem mem_children :
    (name, entry) ∈ tree.children place ↔ (place ++ [name], entry) ∈ tree.entries := by
  rw [children, List.mem_filterMap]
  constructor
  · rintro ⟨⟨other, found⟩, hitem, hchild⟩
    dsimp only at hchild
    split at hchild
    · next last hlast =>
      split at hchild
      · next hplace =>
        cases hchild
        rw [← beq_iff_eq.mp hplace, List.dropLast_append_getLast? name hlast]
        exact hitem
      · cases hchild
    · cases hchild
  · intro hitem
    refine ⟨_, hitem, ?_⟩
    simp

/-- What is listed in a directory is found there, since no place is taken twice. -/
theorem find?_of_mem_children (hmem : (name, entry) ∈ tree.children place) :
    tree.find? (place ++ [name]) = some entry := by
  have hitem := mem_children.mp hmem
  have hlookup : tree.find? (place ++ [name]) = tree.entries.lookup (place ++ [name]) := by
    simp [find?]
  rw [hlookup]
  cases hfound : tree.entries.lookup (place ++ [name]) with
  | none =>
    rw [List.lookup_eq_none_iff] at hfound
    exact absurd (hfound _ hitem) (by simp)
  | some found =>
    have hother : (place ++ [name], found) ∈ tree.entries := by
      obtain ⟨before, after, heq, -⟩ := List.lookup_eq_some_iff.mp hfound
      rw [heq]
      exact List.mem_append_right before List.mem_cons_self
    cases List.inj_on_of_nodup_map tree.distinct hother hitem rfl
    rfl

/-- No source is named twice, since no place is taken twice. -/
theorem nodup_sourceNames (tree : FileTree) (place : Place) (extension : String) :
    (tree.entries.filterMap (sourceName? place extension)).Nodup := by
  have hapart := tree.distinct
  rw [List.Nodup, List.pairwise_map] at hapart
  rw [List.Nodup, List.pairwise_filterMap]
  apply hapart.imp
  intro item other hplaces left hleft right hright heq
  obtain ⟨⟨contents, rfl⟩, -⟩ := sourceName?_eq_some_iff.mp hleft
  obtain ⟨⟨found, rfl⟩, -⟩ := sourceName?_eq_some_iff.mp hright
  exact hplaces (by rw [heq])

end FileTree

namespace Workspace

/-- The names of the sources in a directory, in the order of their bytes. -/
structure AreSourceNames (workspace : Workspace) (place : Place) (extension : String)
    (names : List Path.Name) : Prop where
  increasing : (names.map Path.Name.text).Pairwise Text.BytesBefore
  mem_iff : ∀ name, name ∈ names ↔
    Path.extension name.text = extension ∧
      ∃ contents, (name, Entry.file contents) ∈ workspace.tree.children place

variable {workspace : Workspace} {place : Place} {directory extension : String}
  {name : Path.Name} {names : List Path.Name}

/-! ## Finding sources -/

theorem mem_filterMap_sourceName? :
    name ∈ workspace.tree.entries.filterMap (FileTree.sourceName? place extension) ↔
      Path.extension name.text = extension ∧
        ∃ contents, (name, Entry.file contents) ∈ workspace.tree.children place := by
  simp only [List.mem_filterMap, FileTree.sourceName?_eq_some_iff, FileTree.mem_children]
  constructor
  · rintro ⟨_, hitem, ⟨contents, rfl⟩, hextension⟩
    exact ⟨hextension, contents, hitem⟩
  · rintro ⟨hextension, contents, hitem⟩
    exact ⟨_, hitem, ⟨contents, rfl⟩, hextension⟩

/-- The names of the sources can be put in order. -/
theorem exists_areSourceNames (workspace : Workspace) (place : Place) (extension : String) :
    ∃ names, workspace.AreSourceNames place extension names := by
  have hincreasing := Text.pairwise_lt_mergeSort (fun _ _ => decide_eq_true_iff)
    ((workspace.tree.nodup_sourceNames place extension).map Path.Name.text_injective)
  refine ⟨_, hincreasing.imp Text.bytesBefore_iff_lt.mpr, fun name => ?_⟩
  rw [List.mem_mergeSort, mem_filterMap_sourceName?]

namespace AreSourceNames

variable (hsources : workspace.AreSourceNames place extension names)

include hsources

theorem pairwise_lt : (names.map Path.Name.text).Pairwise (· < ·) :=
  hsources.increasing.imp Text.bytesBefore_iff_lt.mp

theorem perm :
    names.Perm (workspace.tree.entries.filterMap (FileTree.sourceName? place extension)) := by
  have hdistinct : names.Nodup := .of_map _ (hsources.pairwise_lt.imp ne_of_lt)
  apply (List.perm_ext_iff_of_nodup hdistinct
    (workspace.tree.nodup_sourceNames place extension)).mpr
  intro name
  rw [hsources.mem_iff, mem_filterMap_sourceName?]

/-- Paths into the same directory are in the order of the names. -/
theorem pairwise_join (directory : String) :
    (names.map fun name => Path.join [directory, name.text]).Pairwise (· < ·) := by
  have hincreasing := hsources.pairwise_lt
  rw [List.pairwise_map] at hincreasing ⊢
  apply hincreasing.imp
  intro left right hlt
  rw [Path.join_eq_lead_append directory left.isName,
    Path.join_eq_lead_append directory right.isName]
  exact Text.append_lt_append _ hlt

/-- Sorting the paths is sorting the names. -/
theorem sourcePaths_eq (directory : String) :
    workspace.sourcePaths place directory extension =
      names.map fun name => Path.join [directory, name.text] := by
  apply Text.mergeSort_eq (fun _ _ => decide_eq_true_iff)
  · exact hsources.perm.map _
  · exact hsources.pairwise_join directory

/-- The sources that are found are the paths to the names, in their order. -/
theorem sources_eq (hplace : workspace.resolve directory = .ok place)
    (hdirectory : workspace.tree.find? place = some .directory) :
    workspace.sources directory extension =
      .ok (names.map fun name => Path.join [directory, name.text]) :=
  sources_eq_ok_iff.mpr ⟨place, hplace, hdirectory, (hsources.sourcePaths_eq directory).symm⟩

end AreSourceNames

/-! ## Reading sources -/

/-- A source that stands in a directory can be read from there. -/
theorem readSource_join_eq_ok {contents : ByteArray}
    (hplace : workspace.resolve directory = .ok place)
    (hdirectory : workspace.tree.find? place = some .directory)
    (hextension : Path.extension name.text = extension)
    (hchild : (name, Entry.file contents) ∈ workspace.tree.children place) :
    workspace.readSource (Path.join [directory, name.text]) extension = .ok contents := by
  rw [readSource, Path.extension_join name.isName, hextension,
    if_pos (beq_self_eq_true extension), mapError_eq_ok_iff, readFile_eq_ok_iff]
  exact ⟨_, resolve_join hplace hdirectory name, FileTree.find?_of_mem_children hchild⟩

/-! ## Compiling sources -/

variable {target : Target} {manifest : Manifest}

theorem sources_ne_wrongExtension (path other : String) :
    workspace.sources directory extension ≠ .error (.wrongExtension path other) := by
  intro heq
  rcases Parser.bind_eq_error heq with hlisting | ⟨_, -, hdone⟩
  · obtain ⟨_, ⟨⟩⟩ := exists_of_mapError_eq_error hlisting
  · cases hdone

/-- The path of a source has the extension of its name. -/
theorem extension_of_mem_sources {paths : List String} {path : String}
    (hsources : workspace.sources directory extension = .ok paths) (hpath : path ∈ paths) :
    Path.extension path = extension := by
  obtain ⟨place, -, -, rfl⟩ := sources_eq_ok_iff.mp hsources
  obtain ⟨name, -, -, hextension, rfl⟩ := mem_sourcePaths.mp hpath
  rw [Path.extension_join name.isName, hextension]

/-- No source that was found is refused for its extension. -/
theorem compileDirectory_ne_wrongExtension (path other : String) :
    workspace.compileDirectory target directory manifest ≠ .error (.wrongExtension path other) := by
  intro heq
  rcases Parser.bind_eq_error heq with hsources | ⟨paths, hsources, hrest⟩
  · exact sources_ne_wrongExtension path other hsources
  · cases hempty : paths.isEmpty with
    | true =>
      rw [hempty] at hrest
      cases hrest
    | false =>
      rw [hempty] at hrest
      obtain ⟨file, hfile, hcause⟩ := exists_of_compileFiles_eq_error hrest
      have hextension := extension_of_mem_sources hsources hfile
      rcases compileFile_eq_error hcause with ⟨_, ⟨⟩⟩ | ⟨hne, -⟩ | ⟨_, ⟨⟩⟩ | ⟨_, ⟨⟩⟩
      exact hne hextension

theorem name_of_compileFile {path : String} {unit : CompiledUnit}
    (hunit : workspace.compileFile target extension path = .ok unit) :
    unit.name = Path.base path := by
  obtain ⟨contents, -, hsource⟩ := bind_eq_ok_iff.mp hunit
  obtain ⟨program, -, hrest⟩ := bind_eq_ok_iff.mp hsource
  obtain ⟨script, -, hdone⟩ := bind_eq_ok_iff.mp hrest
  cases hdone
  rfl

/-- Units are named like the sources, in their order. -/
theorem map_name_of_compileDirectory {units : List CompiledUnit}
    (hunits : workspace.compileDirectory target directory manifest = .ok units) :
    ∃ place names, workspace.resolve directory = .ok place ∧
      workspace.AreSourceNames place manifest.sourceExtension names ∧
      units.map (fun unit => unit.name) = names.map Path.Name.text := by
  obtain ⟨place, hplace, -, -, hcompiled⟩ := compileDirectory_eq_ok_iff.mp hunits
  obtain ⟨names, hsources⟩ := workspace.exists_areSourceNames place manifest.sourceExtension
  refine ⟨place, names, hplace, hsources, ?_⟩
  rw [hsources.sourcePaths_eq, List.forall₂_map_left_iff] at hcompiled
  have hunitNames : List.Forall₂ (fun (name : Path.Name) (unit : CompiledUnit) =>
      name.text = unit.name) names units := by
    apply hcompiled.imp
    intro name unit hunit
    rw [name_of_compileFile hunit, Path.base_join name.isName]
  rw [← List.forall₂_map_right_iff, ← List.forall₂_map_left_iff,
    List.forall₂_eq_eq_eq] at hunitNames
  exact hunitNames.symm

end Workspace

/-- The sources of a directory are found in the order of their names.  Each of them can be
read, and they are linked in this order. -/
theorem sources_in_order_of_names (workspace : Workspace) (directory : String) :
    (∀ place extension, workspace.resolve directory = .ok place →
      workspace.tree.find? place = some .directory →
      ∃ names, workspace.AreSourceNames place extension names ∧
        workspace.sources directory extension =
          .ok (names.map fun name => Path.join [directory, name.text]) ∧
        (names.map fun name => Path.join [directory, name.text]).Pairwise Text.BytesBefore ∧
        ∀ name ∈ names, ∀ contents, (name, Entry.file contents) ∈ workspace.tree.children place →
          workspace.readSource (Path.join [directory, name.text]) extension = .ok contents) ∧
      ∀ target manifest,
        (∀ path other, workspace.compileDirectory target directory manifest ≠
          .error (.wrongExtension path other)) ∧
        ∀ units, workspace.compileDirectory target directory manifest = .ok units →
          (∃ place names, workspace.resolve directory = .ok place ∧
            workspace.AreSourceNames place manifest.sourceExtension names ∧
            units.map (fun unit => unit.name) = names.map Path.Name.text) ∧
          manifest.link (units.map CompiledUnit.toUnitScript) =
            manifest.header ++
              String.join (units.map fun unit => "\n// " ++ unit.name ++ "\n" ++ unit.script) := by
  constructor
  · intro place extension hplace hdirectory
    obtain ⟨names, hsources⟩ := workspace.exists_areSourceNames place extension
    refine ⟨names, hsources, hsources.sources_eq hplace hdirectory, ?_, ?_⟩
    · exact (hsources.pairwise_join directory).imp Text.bytesBefore_iff_lt.mpr
    · intro name hname contents hchild
      have hextension := ((hsources.mem_iff name).mp hname).1
      exact Workspace.readSource_join_eq_ok hplace hdirectory hextension hchild
  · intro target manifest
    refine ⟨Workspace.compileDirectory_ne_wrongExtension, ?_⟩
    intro units hunits
    refine ⟨Workspace.map_name_of_compileDirectory hunits, ?_⟩
    rw [Manifest.link, List.map_map]
    rfl

/-- A directory with an accent, a capital and a directory named like a source. -/
def Workspace.mixedNames : Workspace :=
  let lib : Path.Name := ⟨"lib", by decide, by decide⟩
  { tree.entries := [([lib], .directory),
      ([lib, ⟨"é.cls", by decide, by decide⟩], .file .empty),
      ([lib, ⟨"a.cls", by decide, by decide⟩], .file .empty),
      ([lib, ⟨"c.cls", by decide, by decide⟩], .directory),
      ([lib, ⟨"B.cls", by decide, by decide⟩], .file .empty)]
    tree.distinct := by decide
    directory := [] }

/-- Capitals come before the other letters, and accents after them. -/
theorem sources_in_order_of_names_accented :
    Workspace.mixedNames.sources "./lib//" ".cls" =
      .ok ["lib/B.cls", "lib/a.cls", "lib/é.cls"] := by
  have hresolve : Workspace.mixedNames.resolve "./lib//" =
      .ok [⟨"lib", by decide, by decide⟩] := rfl
  obtain ⟨names, hsources, hfound, -⟩ :=
    (sources_in_order_of_names Workspace.mixedNames "./lib//").1 _ ".cls" hresolve rfl
  have hentries : (Workspace.mixedNames.tree.entries.filterMap (FileTree.sourceName?
      [⟨"lib", by decide, by decide⟩] ".cls")).map Path.Name.text =
      ["é.cls", "a.cls", "B.cls"] := by decide
  have hperm := hsources.perm.map Path.Name.text
  rw [hentries] at hperm
  have horder : names.map Path.Name.text = ["B.cls", "a.cls", "é.cls"] := by
    apply List.Perm.eq_of_pairwise _ hsources.pairwise_lt (by decide) (hperm.trans (by decide))
    exact fun _ _ _ _ hlt hgt => absurd hgt (lt_asymm hlt)
  have hjoin : names.map (fun name => Path.join ["./lib//", name.text]) =
      ["B.cls", "a.cls", "é.cls"].map fun text => Path.join ["./lib//", text] := by
    rw [← horder, List.map_map]
    rfl
  rw [hfound, hjoin]
  exact congrArg Except.ok (by decide)

end ClassLang
