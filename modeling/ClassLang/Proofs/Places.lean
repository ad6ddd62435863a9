import ClassLang.Files.Workspace
import Mathlib.Data.List.Basic

/-!
# Where paths lead

A path is followed through the directories on its way, so where it leads depends
on them alone.  A file that is written or changed in the meantime makes no
difference.  The shortest form of a path leads to the same place, since a `..`
only takes back a name that led into a directory.
-/

namespace ClassLang

/-! ## Steps that can fail -/

section Steps

variable {ε φ α β : Type} {first : Except ε α}

/-- Two steps succeed if both do. -/
theorem bind_eq_ok_iff {next : α → Except ε β} {result : β} :
    (first >>= next) = .ok result ↔ ∃ value, first = .ok value ∧ next value = .ok result := by
  cases first with
  | error error =>
    apply iff_of_false
    · rintro ⟨⟩
    · rintro ⟨value, ⟨⟩, -⟩
  | ok value =>
    constructor
    · exact fun heq => ⟨value, rfl, heq⟩
    · rintro ⟨_, ⟨⟩, heq⟩
      exact heq

/-- Giving errors another form changes no success. -/
theorem mapError_eq_ok_iff {convert : ε → φ} {value : α} :
    first.mapError convert = .ok value ↔ first = .ok value := by
  cases first with
  | error error => apply iff_of_false <;> rintro ⟨⟩
  | ok found => constructor <;> rintro ⟨⟩ <;> rfl

theorem exists_of_mapError_eq_error {convert : ε → φ} {error : φ}
    (heq : first.mapError convert = .error error) : ∃ inner, error = convert inner := by
  cases first with
  | error inner => exact ⟨inner, (Except.error.inj heq).symm⟩
  | ok value => cases heq

end Steps

/-! ## Trees -/

namespace FileTree

variable {tree : FileTree} {place other : Place} {entry : Entry}

theorem find?_set_self (hplace : place ≠ []) : (tree.set place entry).find? place = some entry := by
  simp [find?, set, hplace]

/-- Setting one place changes no other. -/
theorem find?_set_of_ne (hne : other ≠ place) :
    (tree.set place entry).find? other = tree.find? other := by
  unfold find?
  split
  · rfl
  · have hlookup : ∀ entries : List (Place × Entry),
        (entries.filter fun item => item.1 != place).lookup other = entries.lookup other := by
      intro entries
      induction entries with
      | nil => rfl
      | cons item entries ih =>
        by_cases hitem : item.1 = place
        · have hother : (other == item.1) = false := by simpa [hitem] using hne
          rw [List.filter_cons_of_neg (by simp [hitem]), ih, List.lookup_cons, hother]
        · rw [List.filter_cons_of_pos (by simpa using hitem), List.lookup_cons, List.lookup_cons,
            ih]
    have hother : (other == place) = false := by simpa using hne
    rw [set, List.lookup_cons, hother]
    exact hlookup tree.entries

theorem set_set (tree : FileTree) (place : Place) (first last : Entry) :
    (tree.set place first).set place last = tree.set place last := by
  simp [set, List.filter_filter]

end FileTree

/-! ## Names -/

/-- The parts between separators hold all the other characters. -/
theorem Text.flatten_splitOn (separator : Char) (chars : List Char) :
    (chars.splitOn separator).flatten = chars.filter (· != separator) := by
  induction chars with
  | nil => rfl
  | cons c chars ih =>
    rw [List.splitOn_cons_eq_if_modifyHead]
    split
    · next hseparator =>
      rw [List.flatten_cons, ih, List.filter_cons_of_neg (by simpa using hseparator),
        List.nil_append]
    · next hother =>
      cases hsplit : chars.splitOn separator with
      | nil => exact absurd hsplit (List.splitOn_ne_nil _ _)
      | cons first others =>
        rw [List.filter_cons_of_pos (by simpa using hother), ← ih, hsplit]
        rfl

namespace Path

/-- A name is given by its text. -/
theorem Name.text_injective : Function.Injective Name.text := by
  rintro ⟨text, _, _⟩ ⟨_, _, _⟩ ⟨⟩
  rfl

/-- A text is the text of at most one name. -/
theorem Name.ofText?_eq_some_iff {text : String} {name : Name} :
    ofText? text = some name ↔ name.text = text := by
  unfold ofText?
  split
  · rw [Option.some_inj]
    exact ⟨fun heq => heq ▸ rfl, fun heq => text_injective heq.symm⟩
  · next hnone =>
    refine iff_of_false nofun fun heq => hnone ?_
    rw [← heq]
    exact ⟨name.isName, name.zero⟩

/-- A slash keeps the names on both sides apart. -/
theorem names_append (left right : String) :
    names (left ++ "/" ++ right) = names left ++ names right := by
  have htext : (left ++ "/" ++ right).toList = left.toList ++ '/' :: right.toList := by simp
  rw [names, htext, List.splitOn_append_cons_self, List.map_append]
  rfl

theorem names_of_not_mem {text : String} (htext : '/' ∉ text.toList) : names text = [text] := by
  rw [names, List.splitOn_eq_singleton htext]
  simp

theorem isAbsolute_of_not_mem {path : String} (hpath : '/' ∉ path.toList) :
    isAbsolute path = false := by
  by_contra habsolute
  have hhead : path.toList.head? = some '/' :=
    beq_iff_eq.mp ((Bool.not_eq_false _).mp habsolute)
  exact hpath (List.mem_of_head? hhead)

/-- Names joined by slashes come apart again. -/
theorem names_intercalate {parts : List String} (hne : parts ≠ [])
    (hslash : ∀ name ∈ parts, '/' ∉ name.toList) : names ("/".intercalate parts) = parts := by
  induction parts with
  | nil => exact absurd rfl hne
  | cons first parts ih =>
    rw [List.forall_mem_cons] at hslash
    cases parts with
    | nil =>
      rw [String.intercalate_singleton]
      exact names_of_not_mem hslash.1
    | cons second parts =>
      rw [String.intercalate_cons_cons, names_append, ih (by simp) hslash.2,
        names_of_not_mem hslash.1]
      rfl

/-- The characters of the names are those of the path without the slashes. -/
theorem exists_mem_names_iff {path : String} {c : Char} :
    (∃ name ∈ names path, c ∈ name.toList) ↔ c ∈ path.toList ∧ c ≠ '/' := by
  have hnames : (∃ name ∈ names path, c ∈ name.toList) ↔
      c ∈ (path.toList.splitOn '/').flatten := by
    simp [names, List.mem_flatten]
  rw [hnames, Text.flatten_splitOn, List.mem_filter]
  simp

theorem slash_not_mem_of_mem_names {path name : String} (hname : name ∈ names path) :
    '/' ∉ name.toList :=
  fun hmem => (exists_mem_names_iff.mp ⟨name, hname, hmem⟩).2 rfl

/-- What a step of cleaning does: it drops the name, keeps it or takes back the last one. -/
theorem cleanStep_cases (absolute : Bool) (kept : List String) (name : String) :
    cleanStep absolute kept name = kept ∧
        (name = "" ∨ name = "." ∨ name = ".." ∧ kept = [] ∧ absolute = true) ∨
      cleanStep absolute kept name = name :: kept ∧ name ≠ "" ∧ name ≠ "." ∨
      name = ".." ∧ ∃ front, front ≠ ".." ∧ kept = front :: cleanStep absolute kept name := by
  unfold cleanStep
  split
  · next hhere =>
    have hname : name = "" ∨ name = "." := by simpa using hhere
    exact .inl ⟨rfl, hname.imp_right .inl⟩
  · next hhere =>
    have hname : name ≠ "" ∧ name ≠ "." := by simpa using hhere
    split
    · next habove =>
      have heq : name = ".." := by simpa using habove
      subst heq
      split
      · cases absolute with
        | true => exact .inl ⟨rfl, .inr (.inr ⟨rfl, rfl, rfl⟩)⟩
        | false => exact .inr (.inl ⟨rfl, hname⟩)
      · exact .inr (.inl ⟨rfl, hname⟩)
      · next front outer hfront => exact .inr (.inr ⟨rfl, front, hfront, rfl⟩)
    · exact .inr (.inl ⟨rfl, hname⟩)

end Path

/-! ## Following names -/

namespace Workspace

variable {tree : FileTree} {place next last : Place} {name : String} {names : List String}

/-- Names are followed one after the other. -/
theorem follow_append (tree : FileTree) (place : Place) (first rest : List String) :
    follow tree place (first ++ rest) = follow tree place first >>= (follow tree · rest) := by
  induction first generalizing place with
  | nil => rfl
  | cons name first ih =>
    rw [List.cons_append, follow, follow]
    split
    · rfl
    · rfl
    · split
      · exact ih place
      · split
        · exact ih place.dropLast
        · split
          · rfl
          · next inside _ => exact ih (place ++ [inside])

theorem follow_cons_eq_ok (hfollow : follow tree place (name :: names) = .ok last) :
    ∃ next, follow tree place [name] = .ok next ∧ follow tree next names = .ok last := by
  rw [← List.singleton_append, follow_append] at hfollow
  exact bind_eq_ok_iff.mp hfollow

/-- Where a single name leads: a step is taken from a directory, and it stays there,
goes to the directory above or goes to a name in it. -/
theorem follow_name_eq_ok_iff :
    follow tree place [name] = .ok next ↔
      tree.find? place = some .directory ∧
        ((name = "" ∨ name = ".") ∧ next = place ∨
          name = ".." ∧ next = place.dropLast ∨
          ∃ inside : Path.Name, inside.text = name ∧ next = place ++ [inside]) := by
  have hdone : ∀ place, follow tree place [] = .ok next ↔ next = place :=
    fun place => ⟨fun heq => (Except.ok.inj heq).symm, fun heq => heq ▸ rfl⟩
  have hnot : ∀ inside : Path.Name,
      inside.text ≠ "" ∧ inside.text ≠ "." ∧ inside.text ≠ ".." := fun inside =>
    ⟨inside.isName.ne_empty, inside.isName.ne_here, inside.isName.ne_above⟩
  rw [follow]
  split
  · next hfind => simp [hfind]
  · next contents hfind => simp [hfind]
  · next hfind =>
    split
    · next hhere =>
      have hname : name = "" ∨ name = "." := by simpa using hhere
      rcases hname with rfl | rfl <;> simp [hfind, hdone, hnot]
    · next hhere =>
      have hname : name ≠ "" ∧ name ≠ "." := by simpa using hhere
      split
      · next habove =>
        have heq : name = ".." := by simpa using habove
        subst heq
        simp [hfind, hdone, hnot]
      · next habove =>
        have hne : name ≠ ".." := by simpa using habove
        split
        · next hnone =>
          have hother : ∀ inside : Path.Name, inside.text ≠ name := by
            intro inside heq
            cases hnone.symm.trans (Path.Name.ofText?_eq_some_iff.mpr heq)
          simp [hname, hne, hother]
        · next inside hinside =>
          obtain rfl := Path.Name.ofText?_eq_some_iff.mp hinside
          simp [hfind, hdone, hname, hne, Path.Name.text_injective.eq_iff]

/-- A name leads into the directory where it is followed. -/
theorem follow_text_eq_ok_iff {name : Path.Name} :
    follow tree place [name.text] = .ok next ↔
      tree.find? place = some .directory ∧ next = place ++ [name] := by
  have hname := name.isName
  simp [follow_name_eq_ok_iff, hname.ne_empty, hname.ne_here, hname.ne_above,
    Path.Name.text_injective.eq_iff]

/-- Only directories on the way matter. -/
theorem follow_of_directories {other : FileTree}
    (hdirectories : ∀ place, tree.find? place = some .directory →
      other.find? place = some .directory)
    (hfollow : follow tree place names = .ok last) : follow other place names = .ok last := by
  induction names generalizing place with
  | nil => exact hfollow
  | cons name names ih =>
    obtain ⟨next, hnext, hrest⟩ := follow_cons_eq_ok hfollow
    obtain ⟨hplace, hcases⟩ := follow_name_eq_ok_iff.mp hnext
    have hother : follow other place [name] = .ok next :=
      follow_name_eq_ok_iff.mpr ⟨hdirectories place hplace, hcases⟩
    rw [← List.singleton_append, follow_append, hother]
    exact ih hrest

/-- A step of cleaning keeps the place to which the names lead that were kept. -/
theorem follow_cleanStep {start : Place} {absolute : Bool} {kept : List String}
    (habsolute : absolute = true → start = [])
    (hproper : ∀ name ∈ kept, name ≠ "" ∧ name ≠ ".")
    (hkept : follow tree start kept.reverse = .ok place)
    (hnext : follow tree place [name] = .ok next) :
    follow tree start (Path.cleanStep absolute kept name).reverse = .ok next := by
  obtain ⟨-, hcases⟩ := follow_name_eq_ok_iff.mp hnext
  rcases Path.cleanStep_cases absolute kept name with
    ⟨hsame, hname⟩ | ⟨hpush, -⟩ | ⟨rfl, front, habove, hpop⟩
  · have hstays : next = place := by
      rcases hcases with ⟨-, heq⟩ | ⟨rfl, heq⟩ | ⟨inside, rfl, -⟩
      · exact heq
      · -- At the root there is nothing above.
        obtain ⟨rfl, hroot⟩ : kept = [] ∧ absolute = true := by simpa using hname
        cases hkept
        rw [heq, habsolute hroot, List.dropLast_nil]
      · have hproper := inside.isName
        simp [hproper.ne_empty, hproper.ne_here, hproper.ne_above] at hname
    rw [hsame, hstays]
    exact hkept
  · rw [hpush, List.reverse_cons, follow_append, hkept]
    exact hnext
  · generalize Path.cleanStep absolute kept ".." = outer at hpop
    subst hpop
    have hproperFront := hproper front List.mem_cons_self
    rw [List.reverse_cons, follow_append] at hkept
    obtain ⟨above, houter, hinside⟩ := bind_eq_ok_iff.mp hkept
    obtain ⟨-, hfront⟩ := follow_name_eq_ok_iff.mp hinside
    obtain ⟨inside, -, rfl⟩ : ∃ inside : Path.Name, inside.text = front ∧
        place = above ++ [inside] := by
      simpa [hproperFront, habove] using hfront
    have hback : next = (above ++ [inside]).dropLast := by
      rcases hcases with ⟨hname, -⟩ | ⟨-, hback⟩ | ⟨other, hother, -⟩
      · exact absurd hname (by decide)
      · exact hback
      · exact absurd hother other.isName.ne_above
    rw [houter, hback, List.dropLast_concat]

end Workspace

namespace Path

/-- Cleaning keeps no empty name and no name for the same place, and the names that
it keeps are names of the path. -/
theorem mem_cleanStep {absolute : Bool} {kept : List String} {name other : String}
    (hother : other ∈ cleanStep absolute kept name) :
    other ∈ kept ∨ other = name ∧ name ≠ "" ∧ name ≠ "." := by
  rcases cleanStep_cases absolute kept name with ⟨hsame, -⟩ | ⟨hpush, hname⟩ | ⟨-, front, -, hpop⟩
  · rw [hsame] at hother
    exact .inl hother
  · rw [hpush] at hother
    exact (List.mem_cons.mp hother).elim (fun heq => .inr ⟨heq, hname⟩) .inl
  · rw [hpop]
    exact .inl (List.mem_cons_of_mem front hother)

theorem mem_foldl_cleanStep {absolute : Bool} {names kept : List String} {other : String}
    (hother : other ∈ names.foldl (cleanStep absolute) kept) :
    other ∈ kept ∨ other ∈ names ∧ other ≠ "" ∧ other ≠ "." := by
  induction names generalizing kept with
  | nil => exact .inl hother
  | cons name names ih =>
    rcases ih hother with hkept | ⟨hmem, hproper⟩
    · rcases mem_cleanStep hkept with hkept | ⟨rfl, hproper⟩
      · exact .inl hkept
      · exact .inr ⟨List.mem_cons_self, hproper⟩
    · exact .inr ⟨List.mem_cons_of_mem name hmem, hproper⟩

/-- The names that are left of a path when it is cleaned, last one first. -/
def keptNames (path : String) : List String :=
  (names path).foldl (cleanStep (isAbsolute path)) []

/-- A clean path is made of the names that are kept. -/
theorem clean_eq (path : String) :
    clean path =
      if isAbsolute path then "/" ++ "/".intercalate (keptNames path).reverse
      else if ("/".intercalate (keptNames path).reverse).isEmpty then "."
      else "/".intercalate (keptNames path).reverse :=
  rfl

/-- A kept name is one of the path, but none that leads nowhere. -/
theorem of_mem_keptNames {path name : String} (hname : name ∈ keptNames path) :
    name ∈ names path ∧ name ≠ "" ∧ name ≠ "." :=
  (mem_foldl_cleanStep hname).resolve_left List.not_mem_nil

theorem names_keptNames {path : String} (hne : keptNames path ≠ []) :
    names ("/".intercalate (keptNames path).reverse) = (keptNames path).reverse := by
  apply names_intercalate (by simpa using hne)
  intro name hname
  exact slash_not_mem_of_mem_names (of_mem_keptNames (List.mem_reverse.mp hname)).1

theorem names_of_isAbsolute {path : String} (habsolute : isAbsolute path = true) :
    ∃ rest, names path = "" :: names rest := by
  have hhead : path.toList.head? = some '/' := beq_iff_eq.mp habsolute
  obtain ⟨chars, hchars⟩ := List.head?_eq_some_iff.mp hhead
  have hpath : path = "" ++ "/" ++ String.ofList chars := by
    rw [← String.toList_inj]
    simpa using hchars
  refine ⟨String.ofList chars, ?_⟩
  rw [hpath, names_append]
  rfl

/-- The shortest form of a path has the names that were kept, after an empty one if it
starts at the root. -/
theorem names_clean {path : String} (hkept : keptNames path ≠ []) :
    isAbsolute (clean path) = isAbsolute path ∧
      names (clean path) = (if isAbsolute path then [""] else []) ++ (keptNames path).reverse := by
  have hjoined := names_keptNames hkept
  have hnames : "" ∉ (keptNames path).reverse := by
    intro hmem
    exact (of_mem_keptNames (List.mem_reverse.mp hmem)).2.1 rfl
  generalize hbody : "/".intercalate (keptNames path).reverse = body at hjoined
  have hclean : clean path =
      if isAbsolute path then "/" ++ body else if body.isEmpty then "." else body := by
    rw [clean_eq, hbody]
  rw [hclean]
  cases isAbsolute path with
  | true =>
    have hslash : "/" ++ body = "" ++ "/" ++ body := by simp
    refine ⟨by simp [isAbsolute], ?_⟩
    simp only [if_true]
    rw [hslash, names_append, hjoined]
    rfl
  | false =>
    have hbodyNe : body.isEmpty = false := by
      by_contra hempty
      have heq : body = "" := by simpa using hempty
      rw [heq] at hjoined
      exact hnames (hjoined ▸ List.mem_singleton.mpr rfl)
    have hrelative : isAbsolute body = false := by
      by_contra hslash
      obtain ⟨rest, hrest⟩ := names_of_isAbsolute (Bool.not_eq_false _ ▸ hslash)
      rw [hjoined] at hrest
      exact hnames (hrest ▸ List.mem_cons_self)
    simp only [hbodyNe, Bool.false_eq_true, if_false]
    exact ⟨hrelative, hjoined⟩

/-- Cleaning never takes back the last name. -/
theorem keptNames_of_names {path name : String} {front : List String}
    (hnames : names path = front ++ [name]) (hname : IsName name) :
    keptNames path = name :: front.foldl (cleanStep (isAbsolute path)) [] := by
  rw [keptNames, hnames, List.foldl_append]
  simp [cleanStep, hname.ne_empty, hname.ne_here, hname.ne_above]

/-- A path to a name in a directory is a cleaned one.  Cleaning keeps the names of the
directory, and then that name. -/
theorem exists_join_eq_clean (directory : String) {name : String} (hname : IsName name) :
    ∃ path, join [directory, name] = clean path ∧ isAbsolute path = isAbsolute directory ∧
      keptNames path = name :: keptNames directory := by
  by_cases hdirectory : directory = ""
  · have habsolute : isAbsolute name = isAbsolute directory := by
      rw [isAbsolute_of_not_mem hname.slash, hdirectory]
      rfl
    refine ⟨name, by simp [join, hdirectory, hname.ne_empty], habsolute, ?_⟩
    have hnames : names name = [] ++ [name] := names_of_not_mem hname.slash
    rw [keptNames_of_names hnames hname, hdirectory]
    rfl
  · have habsolute : isAbsolute (directory ++ "/" ++ name) = isAbsolute directory := by
      have hne : directory.toList ≠ [] := by simpa using hdirectory
      obtain ⟨c, chars, hchars⟩ := List.exists_cons_of_ne_nil hne
      simp [isAbsolute, hchars]
    have hnames : names (directory ++ "/" ++ name) = names directory ++ [name] := by
      rw [names_append, names_of_not_mem hname.slash]
    refine ⟨directory ++ "/" ++ name, by simp [join, hdirectory, hname.ne_empty], habsolute, ?_⟩
    rw [keptNames_of_names hnames hname, habsolute, keptNames]

/-- A name in a directory is the last name of the path to it, and the names before
it are those of the directory. -/
theorem names_join (directory : String) {name : String} (hname : IsName name) :
    isAbsolute (join [directory, name]) = isAbsolute directory ∧
      names (join [directory, name]) =
        (if isAbsolute directory then [""] else []) ++ (keptNames directory).reverse ++ [name] := by
  obtain ⟨path, hjoin, habsolute, hkept⟩ := exists_join_eq_clean directory hname
  have hclean := names_clean (hkept ▸ List.cons_ne_nil name (keptNames directory))
  rw [hkept, habsolute, List.reverse_cons, ← List.append_assoc] at hclean
  rw [hjoin]
  exact hclean

/-- A path to a name in a directory has no characters but those of the two. -/
theorem mem_or_mem_of_mem_join {directory name : String} {c : Char} (hname : IsName name)
    (hmem : c ∈ (join [directory, name]).toList) (hc : c ≠ '/') :
    c ∈ directory.toList ∨ c ∈ name.toList := by
  obtain ⟨part, hpart, hchar⟩ := exists_mem_names_iff.mpr ⟨hmem, hc⟩
  rw [(names_join directory hname).2, List.mem_append, List.mem_append,
    List.mem_singleton] at hpart
  rcases hpart with (hroot | hkept) | rfl
  · have hempty : part = "" := by
      split at hroot
      · exact List.mem_singleton.mp hroot
      · exact absurd hroot List.not_mem_nil
    rw [hempty] at hchar
    exact absurd hchar List.not_mem_nil
  · have hnames := (of_mem_keptNames (List.mem_reverse.mp hkept)).1
    exact .inl (exists_mem_names_iff.mp ⟨part, hnames, hchar⟩).1
  · exact .inr hchar

/-! ## Extensions -/

/-- Only the last name counts for the extension. -/
theorem extension_append (left right : String) :
    extension (left ++ "/" ++ right) = extension right := by
  have htext : (left ++ "/" ++ right).toList.reverse =
      right.toList.reverse ++ '/' :: left.toList.reverse := by simp
  rw [extension, extension, htext, List.takeWhile_append]
  split
  · next hwhole =>
    have htail : right.toList.reverse.takeWhile (fun c => c != '.' && c != '/') =
        right.toList.reverse :=
      (List.takeWhile_prefix _).eq_of_length hwhole
    simp [htail]
  · next hpart =>
    have hshort : (right.toList.reverse.takeWhile fun c => c != '.' && c != '/').length <
        right.toList.reverse.length :=
      Nat.lt_of_le_of_ne (List.takeWhile_prefix _).length_le hpart
    rw [List.getElem?_append_left hshort]

/-- The extension of a path is that of its last name. -/
theorem extension_of_names {path name : String} {front : List String}
    (hnames : names path = front ++ [name]) : extension path = extension name := by
  by_cases hslash : '/' ∈ path.toList
  · obtain ⟨right, left, hreverse, hright⟩ :=
      List.eq_append_cons_of_mem (List.mem_reverse.mpr hslash)
    have hpath : path = String.ofList left.reverse ++ "/" ++ String.ofList right.reverse := by
      rw [← String.toList_inj, ← List.reverse_inj, hreverse]
      simp
    have hlast : names (String.ofList right.reverse) = [String.ofList right.reverse] :=
      names_of_not_mem (by simpa using hright)
    rw [hpath, names_append, hlast] at hnames
    rw [hpath, extension_append, List.singleton_inj.mp (List.append_inj' hnames rfl).2]
  · rw [names_of_not_mem hslash, ← List.nil_append [path]] at hnames
    rw [List.singleton_inj.mp (List.append_inj' hnames rfl).2]

theorem exists_names_eq (path : String) : ∃ front name, names path = front ++ [name] := by
  have hne : names path ≠ [] := by simp [names]
  exact ⟨_, _, (List.dropLast_append_getLast hne).symm⟩

end Path

namespace Workspace

variable {tree : FileTree} {place next last : Place} {name : String} {names : List String}

/-- Taking names back as they come leads to the same place as following all of them.  The
names kept so far lead to where the rest is followed from. -/
theorem follow_foldl_cleanStep {start : Place} {absolute : Bool} {kept : List String}
    (habsolute : absolute = true → start = [])
    (hproper : ∀ name ∈ kept, name ≠ "" ∧ name ≠ ".")
    (hkept : follow tree start kept.reverse = .ok place)
    (hfollow : follow tree place names = .ok last) :
    follow tree start (names.foldl (Path.cleanStep absolute) kept).reverse = .ok last := by
  induction names generalizing place kept with
  | nil =>
    cases hfollow
    exact hkept
  | cons name names ih =>
    obtain ⟨next, hnext, hrest⟩ := follow_cons_eq_ok hfollow
    apply ih _ (follow_cleanStep habsolute hproper hkept hnext) hrest
    intro other hother
    rcases Path.mem_cleanStep hother with hother | ⟨rfl, hname⟩
    · exact hproper other hother
    · exact hname

/-- The place from which a path is followed. -/
def origin (workspace : Workspace) (path : String) : Place :=
  if Path.isAbsolute path then [] else workspace.directory

/-- A path leads to a place if it has no zero character, is not empty, and its names can
be followed. -/
theorem resolve_eq_ok_iff {workspace : Workspace} {path : String} :
    workspace.resolve path = .ok place ↔
      '\x00' ∉ path.toList ∧ path ≠ "" ∧
        follow workspace.tree (workspace.origin path) (Path.names path) = .ok place := by
  unfold resolve
  split
  · next hzero => simp_all
  · next hzero =>
    split
    · next hempty => simp_all
    · next hempty => simp_all [origin]

section Join

variable {workspace : Workspace} {directory : String} {name : Path.Name}

/-- A name joined to a directory is followed from the place of the directory. -/
theorem follow_join (hdirectory : workspace.resolve directory = .ok place) (name : Path.Name) :
    follow workspace.tree (workspace.origin (Path.join [directory, name.text]))
        (Path.names (Path.join [directory, name.text])) =
      follow workspace.tree place [name.text] := by
  obtain ⟨-, -, hfollow⟩ := resolve_eq_ok_iff.mp hdirectory
  obtain ⟨habsolute, hnames⟩ := Path.names_join directory name.isName
  have horigin : workspace.origin (Path.join [directory, name.text]) =
      workspace.origin directory := by
    rw [origin, habsolute, origin]
  have hstart : Path.isAbsolute directory = true → workspace.origin directory = [] :=
    fun hslash => if_pos hslash
  have hkept : follow workspace.tree (workspace.origin directory)
      (Path.keptNames directory).reverse = .ok place :=
    follow_foldl_cleanStep hstart (by simp) rfl hfollow
  have hroot : follow workspace.tree (workspace.origin directory)
      (if Path.isAbsolute directory then [""] else []) = .ok (workspace.origin directory) := by
    split
    · next hslash =>
      rw [hstart hslash]
      rfl
    · rfl
  rw [horigin, hnames, follow_append, follow_append, hroot]
  change (follow workspace.tree (workspace.origin directory) _ >>= _) = _
  rw [hkept]
  rfl

/-- A path to a name in a directory leads nowhere else. -/
theorem eq_of_resolve_join (hdirectory : workspace.resolve directory = .ok place)
    (hresolve : workspace.resolve (Path.join [directory, name.text]) = .ok last) :
    last = place ++ [name] := by
  obtain ⟨-, -, hfollow⟩ := resolve_eq_ok_iff.mp hresolve
  rw [follow_join hdirectory name] at hfollow
  exact (follow_text_eq_ok_iff.mp hfollow).2

/-- A name in a directory that is there leads to a place in it. -/
theorem resolve_join (hdirectory : workspace.resolve directory = .ok place)
    (hplace : workspace.tree.find? place = some .directory) (name : Path.Name) :
    workspace.resolve (Path.join [directory, name.text]) = .ok (place ++ [name]) := by
  obtain ⟨hdirectoryZero, -, -⟩ := resolve_eq_ok_iff.mp hdirectory
  have hjoinZero : '\x00' ∉ (Path.join [directory, name.text]).toList := by
    intro hmem
    rcases Path.mem_or_mem_of_mem_join name.isName hmem (by decide) with hmem | hmem
    · exact hdirectoryZero hmem
    · exact name.zero hmem
  have hjoinNe : Path.join [directory, name.text] ≠ "" := by
    intro hempty
    have hnames := (Path.names_join directory name.isName).2
    rw [hempty, Path.names_of_not_mem List.not_mem_nil] at hnames
    have hlast := congrArg List.getLast? hnames
    rw [List.getLast?_concat] at hlast
    exact name.isName.ne_empty (Option.some.inj hlast).symm
  refine resolve_eq_ok_iff.mpr ⟨hjoinZero, hjoinNe, ?_⟩
  rw [follow_join hdirectory name]
  exact follow_text_eq_ok_iff.mpr ⟨hplace, rfl⟩

end Join

/-! ## Reading and writing -/

/-- The workspace with a file at a place, whatever stood there. -/
def withFile (workspace : Workspace) (place : Place) (contents : ByteArray) : Workspace :=
  { workspace with tree := workspace.tree.set place (.file contents) }

section Files

variable {workspace after : Workspace} {path other : String} {contents : ByteArray}

/-- A file can be read if its path leads to it. -/
theorem readFile_eq_ok_iff :
    workspace.readFile path = .ok contents ↔
      ∃ place, workspace.resolve path = .ok place ∧
        workspace.tree.find? place = some (.file contents) := by
  rw [readFile, bind_eq_ok_iff]
  refine exists_congr fun place => and_congr mapError_eq_ok_iff ?_
  cases workspace.tree.find? place with
  | none => apply iff_of_false <;> rintro ⟨⟩
  | some entry =>
    cases entry with
    | directory => apply iff_of_false <;> rintro ⟨⟩
    | file found => constructor <;> rintro ⟨⟩ <;> rfl

/-- A file can be written wherever its path leads to no directory. -/
theorem writeFile_eq_ok_iff :
    workspace.writeFile path contents = .ok after ↔
      ∃ place, workspace.resolve path = .ok place ∧
        workspace.tree.find? place ≠ some .directory ∧
        after = workspace.withFile place contents := by
  rw [writeFile, bind_eq_ok_iff]
  refine exists_congr fun place => and_congr mapError_eq_ok_iff ?_
  split
  · next hfind =>
    apply iff_of_false
    · rintro ⟨⟩
    · exact fun hplace => hplace.1 hfind
  · next hfind =>
    constructor
    · rintro ⟨⟩
      exact ⟨hfind, rfl⟩
    · rintro ⟨-, rfl⟩
      rfl

variable {found : ByteArray}

theorem find?_withFile_self (hplace : workspace.tree.find? place ≠ some .directory) :
    (workspace.withFile place contents).tree.find? place = some (.file contents) := by
  apply FileTree.find?_set_self
  rintro rfl
  exact hplace rfl

theorem find?_withFile_directory {other : Place}
    (hplace : workspace.tree.find? place ≠ some .directory)
    (hother : workspace.tree.find? other = some .directory) :
    (workspace.withFile place contents).tree.find? other = some .directory := by
  rw [withFile, FileTree.find?_set_of_ne (by rintro rfl; exact hplace hother)]
  exact hother

theorem withFile_withFile (workspace : Workspace) (place : Place) (first last : ByteArray) :
    (workspace.withFile place first).withFile place last = workspace.withFile place last := by
  simp only [withFile, FileTree.set_set]

/-- A file that is written where no directory is leaves all paths as they lead. -/
theorem resolve_withFile (hplace : workspace.tree.find? place ≠ some .directory)
    (hresolve : workspace.resolve path = .ok last) :
    (workspace.withFile place contents).resolve path = .ok last := by
  obtain ⟨hzero, hne, hfollow⟩ := resolve_eq_ok_iff.mp hresolve
  exact resolve_eq_ok_iff.mpr ⟨hzero, hne,
    follow_of_directories (fun _ => find?_withFile_directory hplace) hfollow⟩

/-- A file that was written reads as it was written. -/
theorem readFile_withFile_self (hresolve : workspace.resolve path = .ok place)
    (hplace : workspace.tree.find? place ≠ some .directory) :
    (workspace.withFile place contents).readFile path = .ok contents :=
  readFile_eq_ok_iff.mpr ⟨place, resolve_withFile hplace hresolve, find?_withFile_self hplace⟩

/-- A file reads as before if another one was written. -/
theorem readFile_withFile_of_ne (hplace : workspace.tree.find? place ≠ some .directory)
    (hread : workspace.readFile path = .ok found) (hne : workspace.resolve path ≠ .ok place) :
    (workspace.withFile place contents).readFile path = .ok found := by
  obtain ⟨other, hresolve, hfind⟩ := readFile_eq_ok_iff.mp hread
  have hother : other ≠ place := by
    rintro rfl
    exact hne hresolve
  refine readFile_eq_ok_iff.mpr ⟨other, resolve_withFile hplace hresolve, ?_⟩
  rw [withFile, FileTree.find?_set_of_ne hother]
  exact hfind

end Files

/-- A directory for a module, with nothing in it yet. -/
def emptyModule : Workspace :=
  empty [⟨"module", by decide, by decide⟩]

end Workspace

end ClassLang
