import ClassLang.Proofs.Rebuilding
import Mathlib.Data.List.DropRight

/-!
# Paths into a directory

However a directory is written, the paths to the names in it differ only in these names:
the same text stands before each of them, and it ends where the name starts.  So the last
name of such a path is the name, its extension is that of the name, and what is before it
leads to the directory.  The output of a build has such a path, unless it was asked for
elsewhere.
-/

namespace ClassLang

namespace Path

/-- The directory that holds what a path leads to. -/
def parent (path : String) : String :=
  clean (String.ofList (path.toList.rdropWhile (· != '/')))

/-! ## Names that cleaning leaves alone -/

/-- Cleaning keeps all of these names, which are given last one first. -/
def IsSettled (absolute : Bool) (kept : List String) : Prop :=
  kept.reverse.foldl (cleanStep absolute) [] = kept

theorem IsSettled.of_cons {absolute : Bool} {front : String} {outer : List String}
    (hsettled : IsSettled absolute (front :: outer)) (hempty : front ≠ "") (hhere : front ≠ ".")
    (habove : front ≠ "..") : IsSettled absolute outer := by
  have hpush : ∀ kept, cleanStep absolute kept front = front :: kept := by
    simp [cleanStep, hempty, hhere, habove]
  rw [IsSettled, List.reverse_cons, List.foldl_concat, hpush] at hsettled
  exact (List.cons.inj hsettled).2

/-- Going on with a name leaves the kept names settled. -/
theorem IsSettled.step {absolute : Bool} {kept : List String}
    (hsettled : IsSettled absolute kept) (hproper : ∀ name ∈ kept, name ≠ "" ∧ name ≠ ".")
    (name : String) : IsSettled absolute (cleanStep absolute kept name) := by
  rcases cleanStep_cases absolute kept name with
    ⟨hsame, -⟩ | ⟨hpush, -⟩ | ⟨-, front, habove, hpop⟩
  · rw [hsame]
    exact hsettled
  · rw [hpush, IsSettled, List.reverse_cons, List.foldl_concat, hsettled]
    exact hpush
  · -- The name that is taken back was no `..`, so the names before it were kept without it.
    rw [hpop, List.forall_mem_cons] at hproper
    rw [hpop] at hsettled
    exact hsettled.of_cons hproper.1.1 hproper.1.2 habove

theorem isSettled_foldl_cleanStep {absolute : Bool} {kept : List String}
    (hsettled : IsSettled absolute kept) (hproper : ∀ name ∈ kept, name ≠ "" ∧ name ≠ ".")
    (names : List String) : IsSettled absolute (names.foldl (cleanStep absolute) kept) := by
  induction names generalizing kept with
  | nil => exact hsettled
  | cons name names ih =>
    apply ih (hsettled.step hproper name)
    intro other hother
    rcases mem_cleanStep hother with hkept | ⟨rfl, hname⟩
    · exact hproper other hkept
    · exact hname

/-- The names that are kept are settled: cleaning them again takes none away. -/
theorem isSettled_keptNames (path : String) : IsSettled (isAbsolute path) (keptNames path) := by
  have hnil : IsSettled (isAbsolute path) [] := rfl
  exact isSettled_foldl_cleanStep hnil (by simp) (names path)

/-! ## The text before a name -/

/-- What stands before a name in the path to it from a directory. -/
def lead (directory : String) : String :=
  (if isAbsolute directory then "/" else "") ++
    String.join ((keptNames directory).reverse.map (· ++ "/"))

theorem intercalate_concat (parts : List String) (last : String) :
    "/".intercalate (parts ++ [last]) = String.join (parts.map (· ++ "/")) ++ last := by
  induction parts with
  | nil => simp
  | cons part parts ih =>
    rw [List.cons_append, String.intercalate_cons_of_ne_nil (by simp), ih]
    simp [String.append_assoc]

/-- All paths into a directory start with the same text. -/
theorem join_eq_lead_append (directory : String) {name : String} (hname : IsName name) :
    join [directory, name] = lead directory ++ name := by
  obtain ⟨path, hjoin, habsolute, hkept⟩ := exists_join_eq_clean directory hname
  have hne : (String.join ((keptNames directory).reverse.map (· ++ "/")) ++ name).isEmpty =
      false := by
    simp [hname.ne_empty]
  rw [hjoin, clean_eq, hkept, habsolute, List.reverse_cons, intercalate_concat, lead]
  cases isAbsolute directory with
  | true => simp only [if_true, String.append_assoc]
  | false => simp only [hne, Bool.false_eq_true, if_false, String.empty_append]

/-- The text before the names ends in a slash, unless there is nothing before them. -/
theorem names_lead (directory : String) :
    names (lead directory) =
      (if isAbsolute directory then [""] else []) ++ (keptNames directory).reverse ++ [""] := by
  have hjoin : String.join ((keptNames directory).reverse.map (· ++ "/")) =
      "/".intercalate ((keptNames directory).reverse ++ [""]) := by
    rw [intercalate_concat, String.append_empty]
  have hslash : ∀ name ∈ (keptNames directory).reverse ++ [""], '/' ∉ name.toList := by
    intro name hname
    rcases List.mem_append.mp hname with hkept | hlast
    · exact slash_not_mem_of_mem_names (of_mem_keptNames (List.mem_reverse.mp hkept)).1
    · rw [List.mem_singleton.mp hlast]
      exact List.not_mem_nil
  have hnames := names_intercalate (by simp) hslash
  rw [lead, hjoin]
  cases isAbsolute directory with
  | true =>
    change names ("" ++ "/" ++ _) = _
    rw [names_append, hnames]
    rfl
  | false =>
    change names ("" ++ _) = _
    rw [String.empty_append, hnames]
    rfl

theorem isAbsolute_lead (directory : String) :
    isAbsolute (lead directory) = isAbsolute directory := by
  have hnames := names_lead directory
  cases habsolute : isAbsolute directory with
  | true =>
    rw [lead, habsolute, if_pos rfl, isAbsolute, String.toList_append]
    rfl
  | false =>
    -- A path from the root starts with an empty name, and no kept name is empty.
    by_contra hroot
    obtain ⟨rest, hrest⟩ := names_of_isAbsolute (Bool.not_eq_false _ ▸ hroot)
    rw [habsolute, hrest] at hnames
    cases hkept : (keptNames directory).reverse with
    | nil =>
      rw [hkept] at hnames
      obtain ⟨front, name, hname⟩ := exists_names_eq rest
      simp [hname] at hnames
    | cons name others =>
      rw [hkept] at hnames
      have hmem : name ∈ keptNames directory :=
        List.mem_reverse.mp (hkept ▸ List.mem_cons_self)
      exact (of_mem_keptNames hmem).2.1 (List.cons.inj hnames).1.symm

/-- The text before the names leads to the directory. -/
theorem clean_lead (directory : String) : clean (lead directory) = clean directory := by
  have hkept : keptNames (lead directory) = keptNames directory := by
    have hroot : (if isAbsolute directory then [""] else []).foldl
        (cleanStep (isAbsolute directory)) [] = [] := by
      split <;> rfl
    rw [keptNames, names_lead, isAbsolute_lead, List.foldl_concat, List.foldl_append, hroot,
      isSettled_keptNames directory]
    rfl
  rw [clean_eq, clean_eq directory, hkept, isAbsolute_lead]

/-- No part of the last name stands before it. -/
theorem takeWhile_reverse_lead (directory : String) :
    (lead directory).toList.reverse.takeWhile (· != '/') = [] := by
  unfold lead
  cases keptNames directory with
  | nil => cases isAbsolute directory <;> rfl
  | cons name outer => simp

section Join

variable {directory name : String}

theorem ne_slash_of_mem_reverse (hname : IsName name) :
    ∀ c ∈ name.toList.reverse, (c != '/') = true := by
  intro c hc
  have hne : c ≠ '/' := fun heq => hname.slash (heq ▸ List.mem_reverse.mp hc)
  exact bne_iff_ne.mpr hne

/-- The directory of a joined path is the clean directory. -/
theorem parent_join (hname : IsName name) : parent (join [directory, name]) = clean directory := by
  have hdrop : (lead directory).toList.reverse.dropWhile (· != '/') =
      (lead directory).toList.reverse := by
    have hwhole := List.takeWhile_append_dropWhile (p := (· != '/'))
      (l := (lead directory).toList.reverse)
    rw [takeWhile_reverse_lead] at hwhole
    exact hwhole
  rw [join_eq_lead_append directory hname, parent, List.rdropWhile, String.toList_append,
    List.reverse_append, List.dropWhile_append_of_pos (ne_slash_of_mem_reverse hname), hdrop,
    List.reverse_reverse, String.ofList_toList, clean_lead]

/-- The last name of a joined path is the name that was joined. -/
theorem base_join (hname : IsName name) : base (join [directory, name]) = name := by
  have hreverse : (lead directory ++ name).toList.reverse =
      name.toList.reverse ++ (lead directory).toList.reverse := by simp
  have htake : (name.toList.reverse ++ (lead directory).toList.reverse).takeWhile (· != '/') =
      name.toList.reverse := by
    rw [List.takeWhile_append_of_pos (ne_slash_of_mem_reverse hname), takeWhile_reverse_lead,
      List.append_nil]
  have hchars : name.toList.reverse ≠ [] := by simpa using hname.ne_empty
  obtain ⟨c, chars, hcons⟩ := List.exists_cons_of_ne_nil hchars
  have hc : c ≠ '/' := bne_iff_ne.mp (ne_slash_of_mem_reverse hname c (hcons ▸ List.mem_cons_self))
  have htrim : (lead directory ++ name).toList.reverse.dropWhile (· == '/') =
      name.toList.reverse ++ (lead directory).toList.reverse := by
    rw [hreverse, hcons]
    simp [hc]
  rw [join_eq_lead_append directory hname, base, htrim]
  simp [hname.ne_empty, htake]

/-- The extension of a joined path is that of the name. -/
theorem extension_join (hname : IsName name) :
    extension (join [directory, name]) = extension name :=
  extension_of_names (names_join directory hname).2

end Join

theorem exists_eq_append_extension (path : String) : ∃ stem, path = stem ++ extension path := by
  have hsplit := List.takeWhile_append_dropWhile (p := fun c => c != '.' && c != '/')
    (l := path.toList.reverse)
  unfold extension
  dsimp only
  generalize path.toList.reverse.takeWhile (fun c => c != '.' && c != '/') = tail at hsplit ⊢
  generalize path.toList.reverse.dropWhile (fun c => c != '.' && c != '/') = rest at hsplit
  split
  · next hdot =>
    rw [← hsplit, List.getElem?_append_right le_rfl, Nat.sub_self, beq_iff_eq,
      ← List.head?_eq_getElem?] at hdot
    obtain ⟨front, rfl⟩ := List.head?_eq_some_iff.mp hdot
    refine ⟨String.ofList front.reverse, ?_⟩
    rw [← String.toList_inj, ← List.reverse_inj, ← hsplit]
    simp
  · exact ⟨path, String.append_empty.symm⟩

end Path

/-! ## Where the output goes -/

namespace Manifest

theorem exists_eq_append_of_extension {path : String}
    (hextension : Path.extension path = scriptExtension) : ∃ stem, path = stem ++ ".js" := by
  obtain ⟨stem, hstem⟩ := Path.exists_eq_append_extension path
  rw [hextension] at hstem
  exact ⟨stem, hstem⟩

/-- It makes no difference whether the extension is asked for. -/
theorem outputPath_append_extension {requested : String} (hne : requested ≠ "")
    (hextension : Path.extension requested ≠ scriptExtension) (manifest : Manifest)
    (directory : String) :
    manifest.outputPath directory (requested ++ scriptExtension) =
      manifest.outputPath directory requested := by
  have hscript : Path.extension (requested ++ scriptExtension) = scriptExtension := by
    have hextended := extension_withScriptExtension requested
    rw [withScriptExtension, if_neg (by simpa using hextension)] at hextended
    exact hextended
  simp [outputPath, withScriptExtension, hne, hscript, hextension]

/-- What a manifest must have: a package without separators, a version that can be read, and
an extension that starts with a dot. -/
theorem validate_eq_ok_iff {manifest : Manifest} :
    manifest.validate = .ok () ↔
      manifest.package ≠ "" ∧ manifest.package.toList.any isSeparator = false ∧
        (∃ version, Version.parse manifest.version = .ok version) ∧
        manifest.sourceExtension.toList.head? = some '.' := by
  unfold validate
  cases hempty : manifest.package.isEmpty with
  | true => exact iff_of_false nofun fun hvalid => hvalid.1 (by simpa using hempty)
  | false =>
    cases hseparator : manifest.package.toList.any isSeparator with
    | true => exact iff_of_false nofun fun hvalid => by cases hvalid.2.1
    | false =>
      cases hversion : Version.parse manifest.version with
      | error error =>
        refine iff_of_false nofun fun hvalid => ?_
        obtain ⟨-, -, ⟨_, ⟨⟩⟩, -⟩ := hvalid
      | ok version =>
        cases hdot : manifest.sourceExtension.toList.head? != some '.' with
        | true => exact iff_of_false nofun fun hvalid => by simp [hvalid.2.2.2] at hdot
        | false =>
          exact iff_of_true rfl
            ⟨by simpa using hempty, rfl, ⟨version, rfl⟩, by simpa using hdot⟩

theorem slash_not_mem_of_validate {manifest : Manifest} (hvalid : manifest.validate = .ok ()) :
    '/' ∉ manifest.package.toList := by
  intro hmem
  have hnone := List.any_eq_false.mp (validate_eq_ok_iff.mp hvalid).2.1
  exact hnone '/' hmem rfl

/-- Without a file that was asked for, the output is in the directory. -/
theorem exists_outputPath_eq_join {manifest : Manifest} (hvalid : manifest.validate = .ok ())
    (directory : String) :
    ∃ name, Path.IsName name ∧ Path.extension name = scriptExtension ∧
      manifest.outputPath directory "" = Path.join [directory, name] := by
  have hslash : '/' ∉ (withScriptExtension manifest.package).toList := by
    have hpackage := slash_not_mem_of_validate hvalid
    unfold withScriptExtension
    split
    · exact hpackage
    · simp [scriptExtension, hpackage]
  have hextension := extension_withScriptExtension manifest.package
  refine ⟨withScriptExtension manifest.package, isName_of_extension hslash hextension,
    hextension, ?_⟩
  simp [outputPath, Path.isAbsolute_of_not_mem hslash]

end Manifest

/-- A build writes a script, whether or not it was asked for with the extension of one.
If no file was asked for, the script is in the directory that was built. -/
theorem output_is_script_in_directory (manifest : Manifest) (directory : String) :
    (∀ requested, Path.extension (manifest.outputPath directory requested) = ".js") ∧
      (∀ requested, requested ≠ "" → Path.extension requested ≠ ".js" →
        manifest.outputPath directory (requested ++ ".js") =
          manifest.outputPath directory requested) ∧
      (manifest.validate = .ok () →
        ∃ name, '/' ∉ name.toList ∧ (∃ stem, name = stem ++ ".js") ∧
          manifest.outputPath directory "" = Path.join [directory, name] ∧
          Path.parent (manifest.outputPath directory "") = Path.clean directory) := by
  refine ⟨manifest.extension_outputPath directory, ?_, ?_⟩
  · intro requested hne hextension
    exact Manifest.outputPath_append_extension hne hextension manifest directory
  · intro hvalid
    obtain ⟨name, hname, hextension, hpath⟩ :=
      Manifest.exists_outputPath_eq_join hvalid directory
    refine ⟨name, hname.slash, Manifest.exists_eq_append_of_extension hextension, hpath, ?_⟩
    rw [hpath, Path.parent_join hname]

/-- A package may be named like the directory above.  Its script is no place above. -/
theorem output_is_script_in_directory_dots :
    Manifest.validate ⟨"..", "1.0", ".cls"⟩ = .ok () ∧
      Manifest.outputPath ⟨"..", "1.0", ".cls"⟩ "lib//./zoo/.." "" = "lib/...js" ∧
      Path.parent "lib/...js" = "lib" ∧
      Manifest.outputPath ⟨"..", "1.0", ".cls"⟩ "lib" "out/a.b.js" =
        Manifest.outputPath ⟨"..", "1.0", ".cls"⟩ "lib" "out/a.b" := by
  have hvalid : Manifest.validate ⟨"..", "1.0", ".cls"⟩ = .ok () := by decide
  have hpath : Manifest.outputPath ⟨"..", "1.0", ".cls"⟩ "lib//./zoo/.." "" = "lib/...js" := by
    decide
  obtain ⟨_, -, -, -, hparent⟩ :=
    (output_is_script_in_directory ⟨"..", "1.0", ".cls"⟩ "lib//./zoo/..").2.2 hvalid
  have hsame := (output_is_script_in_directory ⟨"..", "1.0", ".cls"⟩ "lib").2.1 "out/a.b"
    (by decide) (by decide)
  have hclean : Path.clean "lib//./zoo/.." = "lib" := by decide
  have hrequested : "out/a.b" ++ ".js" = "out/a.b.js" := by decide
  rw [hpath, hclean] at hparent
  rw [hrequested] at hsame
  exact ⟨hvalid, hpath, hparent, hsame⟩

end ClassLang
