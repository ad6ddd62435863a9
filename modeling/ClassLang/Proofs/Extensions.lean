import ClassLang.Proofs.SourceOrder

/-!
# Extensions and endings

An extension is what a path has from the last dot of its last name.  So it has one dot,
at its front, and no slash.  A manifest may give its sources any extension that starts
with a dot.  If it has no other dot and no slash, the sources are the files that end in
it.  Otherwise no file has it, not even one that ends in it, and there are no sources.
-/

namespace ClassLang

def Text.endsIn (ending text : String) : Bool :=
  ending.toList.isSuffixOf text.toList

theorem Text.endsIn_iff {ending text : String} :
    endsIn ending text = true ↔ ∃ stem, text = stem ++ ending := by
  rw [endsIn, List.isSuffixOf_iff_suffix]
  constructor
  · rintro ⟨stem, heq⟩
    exact ⟨String.ofList stem, by simp [← String.toList_inj, heq]⟩
  · rintro ⟨stem, rfl⟩
    exact ⟨stem.toList, String.toList_append.symm⟩

namespace Path

/-- A dot, and neither a dot nor a slash behind it. -/
def IsExtension (text : String) : Prop :=
  ∃ chars, text.toList = '.' :: chars ∧ ∀ c ∈ chars, (c != '.' && c != '/') = true

/-- A path that ends in an extension has it. -/
theorem extension_append_of_isExtension {ending : String} (hending : IsExtension ending)
    (stem : String) : extension (stem ++ ending) = ending := by
  obtain ⟨chars, heq, hchars⟩ := hending
  have hreverse : (stem ++ ending).toList.reverse =
      chars.reverse ++ '.' :: stem.toList.reverse := by
    simp [heq]
  have htake : (chars.reverse ++ '.' :: stem.toList.reverse).takeWhile
      (fun c => c != '.' && c != '/') = chars.reverse := by
    rw [List.takeWhile_append_of_pos (fun c hc => hchars c (List.mem_reverse.mp hc)),
      List.takeWhile_cons_of_neg (by decide), List.append_nil]
  rw [extension, hreverse, htake, ← String.toList_inj, heq]
  simp

/-- What a path has is an extension or nothing. -/
theorem extension_eq_empty_or_isExtension (path : String) :
    extension path = "" ∨ IsExtension (extension path) := by
  unfold extension
  dsimp only
  split
  · refine .inr ⟨_, String.toList_ofList, fun c hc => ?_⟩
    rw [List.mem_reverse] at hc
    simpa using List.mem_takeWhile_imp hc
  · exact .inl rfl

/-- The paths with an extension are those that end in it. -/
theorem extension_eq_iff_of_isExtension {ending : String} (hending : IsExtension ending)
    {path : String} : extension path = ending ↔ Text.endsIn ending path = true := by
  rw [Text.endsIn_iff]
  constructor
  · rintro rfl
    exact exists_eq_append_extension path
  · rintro ⟨stem, rfl⟩
    exact extension_append_of_isExtension hending stem

theorem extension_ne_of_not_isExtension {ending : String} (hending : ¬IsExtension ending)
    (hne : ending ≠ "") (path : String) : extension path ≠ ending := by
  rintro rfl
  rcases extension_eq_empty_or_isExtension path with hempty | hextension
  · exact hne hempty
  · exact hending hextension

end Path

namespace Manifest

variable {manifest : Manifest}

theorem sourceExtension_ne_empty (manifest : Manifest) : manifest.sourceExtension ≠ "" := by
  unfold sourceExtension
  split
  · decide
  · next hne => simpa using hne

theorem exists_sourceExtension_eq_of_validate (hvalid : manifest.validate = .ok ()) :
    ∃ chars, manifest.sourceExtension.toList = '.' :: chars :=
  List.head?_eq_some_iff.mp (validate_eq_ok_iff.mp hvalid).2.2.2

/-- A manifest that is in order gives its sources an extension that a file can have, unless
there is a second dot or a slash in it. -/
theorem isExtension_sourceExtension_iff (hvalid : manifest.validate = .ok ()) :
    Path.IsExtension manifest.sourceExtension ↔
      manifest.sourceExtension.toList.count '.' = 1 ∧ '/' ∉ manifest.sourceExtension.toList := by
  obtain ⟨chars, heq⟩ := exists_sourceExtension_eq_of_validate hvalid
  have hcount : ('.' :: chars).count '.' = 1 ↔ '.' ∉ chars := by simp [List.count_eq_zero]
  rw [Path.IsExtension, heq, hcount]
  constructor
  · rintro ⟨_, ⟨⟩, hchars⟩
    exact ⟨fun hdot => absurd (hchars _ hdot) (by decide), by
      simpa using fun hslash => absurd (hchars _ hslash) (by decide)⟩
  · rintro ⟨hdot, hslash⟩
    refine ⟨chars, rfl, fun c hc => ?_⟩
    simp only [Bool.and_eq_true, bne_iff_ne]
    exact ⟨fun h => hdot (h ▸ hc), fun h => hslash (h ▸ List.mem_cons_of_mem _ hc)⟩

end Manifest

/-- The files in a directory with a name that ends in the given way. -/
def FileTree.filesEndingIn (tree : FileTree) (place : Place) (ending : String) : List String :=
  (tree.children place).filterMap fun (name, entry) =>
    match entry with
    | .directory => none
    | .file _ => if Text.endsIn ending name.text then some name.text else none

namespace Workspace

variable {workspace : Workspace} {extension : String}

/-- The sources with an extension are the files that end in it. -/
structure SourcesEndIn (workspace : Workspace) (extension : String) : Prop where
  found : ∀ directory place, workspace.resolve directory = .ok place →
    workspace.tree.find? place = some .directory →
      ∃ paths, workspace.sources directory extension = .ok paths ∧
        paths.Perm ((workspace.tree.filesEndingIn place extension).map fun name =>
          Path.join [directory, name])
  refused : ∀ path, workspace.readSource path extension = .error (.wrongExtension path extension) ↔
    Text.endsIn extension path = false

/-- There are no sources with an extension, whatever the files are called. -/
structure HasNoSources (workspace : Workspace) (extension : String) : Prop where
  found : ∀ directory place, workspace.resolve directory = .ok place →
    workspace.tree.find? place = some .directory → workspace.sources directory extension = .ok []
  refused : ∀ path, workspace.readSource path extension = .error (.wrongExtension path extension)

theorem readSource_eq_wrongExtension_iff {path : String} :
    workspace.readSource path extension = .error (.wrongExtension path extension) ↔
      Path.extension path ≠ extension := by
  by_cases heq : Path.extension path = extension
  · rw [readSource, if_pos (beq_iff_eq.mpr heq)]
    refine iff_of_false (fun herror => ?_) (fun hne => hne heq)
    obtain ⟨_, ⟨⟩⟩ := exists_of_mapError_eq_error herror
  · rw [readSource, if_neg (by simpa using heq)]
    exact iff_of_true rfl heq

theorem sources_eq_of_fileNames {directory : String} {names : List String}
    (hnames : workspace.fileNames directory = .ok names) :
    workspace.sources directory extension =
      .ok (((names.filter fun name => Path.extension name == extension).map fun name =>
        Path.join [directory, name]).mergeSort fun left right => left ≤ right) := by
  rw [sources, hnames]
  rfl

/-- With an extension that a file can have, the sources are the files that end in it. -/
theorem sourcesEndIn_of_isExtension (hextension : Path.IsExtension extension)
    (workspace : Workspace) : workspace.SourcesEndIn extension where
  found directory place hplace hdirectory := by
    have hnames := fileNames_eq_ok_iff.mpr ⟨place, hplace, hdirectory, rfl⟩
    refine ⟨_, sources_eq_of_fileNames hnames, (List.mergeSort_perm _ _).trans ?_⟩
    have hsame : ∀ name, (Path.extension name == extension) = Text.endsIn extension name := by
      intro name
      rw [Bool.eq_iff_iff, beq_iff_eq, Path.extension_eq_iff_of_isExtension hextension]
    simp only [hsame, List.filter_filterMap]
    refine List.Perm.of_eq (congrArg _ (List.filterMap_congr ?_))
    rintro ⟨name, entry⟩ -
    cases entry with
    | directory => rfl
    | file contents => rfl
  refused path := by
    rw [readSource_eq_wrongExtension_iff, ne_eq, Path.extension_eq_iff_of_isExtension hextension,
      Bool.not_eq_true]

/-- With any other one there are none. -/
theorem hasNoSources_of_not_isExtension (hextension : ¬Path.IsExtension extension)
    (hne : extension ≠ "") (workspace : Workspace) : workspace.HasNoSources extension where
  found directory place hplace hdirectory := by
    refine sources_eq_ok_iff.mpr ⟨place, hplace, hdirectory, ?_⟩
    refine (List.eq_nil_iff_forall_not_mem.mpr fun path hpath => ?_).symm
    obtain ⟨name, _, -, hname, -⟩ := mem_sourcePaths.mp hpath
    exact Path.extension_ne_of_not_isExtension hextension hne name.text hname
  refused path :=
    readSource_eq_wrongExtension_iff.mpr
      (Path.extension_ne_of_not_isExtension hextension hne path)

/-- A file that is called like the extension itself ends in it. -/
theorem HasNoSources.not_sourcesEndIn (hnone : workspace.HasNoSources extension) :
    ¬workspace.SourcesEndIn extension := by
  intro hsources
  have hends : Text.endsIn extension extension = true :=
    Text.endsIn_iff.mpr ⟨"", String.empty_append.symm⟩
  have hnot := (hsources.refused extension).mp (hnone.refused extension)
  exact Bool.false_ne_true (hnot.symm.trans hends)

end Workspace

/-- The sources of a module are the files that end in its extension exactly if this has one
dot and no slash.  Otherwise the module has no sources at all. -/
theorem sources_end_in_extension_iff {manifest : Manifest} (hvalid : manifest.validate = .ok ()) :
    ((∀ workspace : Workspace, workspace.SourcesEndIn manifest.sourceExtension) ↔
      manifest.sourceExtension.toList.count '.' = 1 ∧
        '/' ∉ manifest.sourceExtension.toList) ∧
      (¬(manifest.sourceExtension.toList.count '.' = 1 ∧
          '/' ∉ manifest.sourceExtension.toList) →
        ∀ workspace : Workspace, workspace.HasNoSources manifest.sourceExtension) := by
  rw [← Manifest.isExtension_sourceExtension_iff hvalid]
  have hnone : ¬Path.IsExtension manifest.sourceExtension →
      ∀ workspace : Workspace, workspace.HasNoSources manifest.sourceExtension :=
    fun hextension => Workspace.hasNoSources_of_not_isExtension hextension
      manifest.sourceExtension_ne_empty
  refine ⟨⟨fun hsources => ?_, Workspace.sourcesEndIn_of_isExtension⟩, hnone⟩
  by_contra hextension
  -- Any workspace will do: a path that is nothing but the extension is refused in all of them.
  exact (hnone hextension Workspace.mixedNames).not_sourcesEndIn (hsources _)

/-- The usual extension can be found, one with two dots cannot. -/
theorem sources_end_in_extension_iff_dots :
    (Manifest.validate ⟨"zoo", "1.0.0", ""⟩ = .ok () ∧
      ∀ workspace : Workspace, workspace.SourcesEndIn ".cls") ∧
      Manifest.validate ⟨"zoo", "1.0.0", ".d.cls"⟩ = .ok () ∧
        ∀ workspace : Workspace, workspace.HasNoSources ".d.cls" := by
  have husual : Manifest.validate ⟨"zoo", "1.0.0", ""⟩ = .ok () := by decide
  have hdouble : Manifest.validate ⟨"zoo", "1.0.0", ".d.cls"⟩ = .ok () := by decide
  exact ⟨⟨husual, (sources_end_in_extension_iff husual).1.mpr (by decide)⟩,
    hdouble, (sources_end_in_extension_iff hdouble).2 (by decide)⟩

def Workspace.doubleExtension : Workspace where
  tree.entries := [([⟨"x.d.cls", by decide, by decide⟩], .file .empty)]
  tree.distinct := by decide
  directory := []

/-- A file may end in the extension of an accepted manifest and still be no source. -/
theorem double_extension_not_found :
    Manifest.validate ⟨"zoo", "1.0.0", ".d.cls"⟩ = .ok () ∧
      Workspace.doubleExtension.tree.filesEndingIn [] ".d.cls" = ["x.d.cls"] ∧
      Workspace.doubleExtension.sources "." ".d.cls" = .ok [] ∧
      Workspace.doubleExtension.readSource "x.d.cls" ".d.cls" =
        .error (.wrongExtension "x.d.cls" ".d.cls") := by
  have hnames : Workspace.doubleExtension.fileNames "." = .ok ["x.d.cls"] := rfl
  have hnone : ["x.d.cls"].filter (fun name => Path.extension name == ".d.cls") = [] := by decide
  refine ⟨by decide, by decide, ?_, rfl⟩
  rw [Workspace.sources_eq_of_fileNames hnames, hnone, List.map_nil, List.mergeSort_nil]

end ClassLang
