import ClassLang.Build.Output
import ClassLang.Proofs.Lines
import ClassLang.Proofs.Nesting
import ClassLang.Proofs.Places

/-!
# Headers

The header of a linked script is meant to be its first line, a comment.  A version is
written in letters, digits and a few marks, so it stays on this line.  The name of the
package is written as it is, and a manifest is accepted with any name that has no
separators.  So the header is one line exactly if the name is.
-/

namespace ClassLang

/-! ## The characters of versions -/

namespace Version

def isVersionChar (c : Char) : Bool :=
  isIdentifierChar c || c == '.' || c == '+'

/-- The parts of a version are made of letters, digits, dots and hyphens. -/
theorem all_isVersionChar_of_areIdentifiers {text : List Char}
    (hparts : areIdentifiers text = true) : text.all isVersionChar = true := by
  rw [List.all_eq_true]
  intro c hc
  by_cases hdot : c = '.'
  · rw [hdot]
    rfl
  · have hmem : c ∈ (text.splitOn '.').flatten := by
      rw [Text.flatten_splitOn, List.mem_filter]
      exact ⟨hc, by simpa using hdot⟩
    obtain ⟨part, hpart, hchar⟩ := List.mem_flatten.mp hmem
    have hidentifier := List.all_eq_true.mp hparts part hpart
    rw [Bool.and_eq_true] at hidentifier
    simp [isVersionChar, List.all_eq_true.mp hidentifier.2 c hchar]

theorem all_isVersionChar_of_metadata? {text metadata : List Char}
    (heq : metadata? text = some metadata) : metadata.all isVersionChar = true := by
  unfold metadata? at heq
  split at heq
  · cases heq
    rfl
  · split at heq
    · next hparts =>
      cases heq
      exact all_isVersionChar_of_areIdentifiers hparts
    · cases heq
  · cases heq

theorem all_isVersionChar_of_suffixes? {text prerelease metadata : List Char}
    (heq : suffixes? text = some (prerelease, metadata)) :
    prerelease.all isVersionChar = true ∧ metadata.all isVersionChar = true := by
  unfold suffixes? at heq
  split at heq
  · next rest =>
    obtain ⟨found, hfound, hrest⟩ := Option.bind_eq_some_iff.mp heq
    split at hrest
    · next hparts =>
      cases hrest
      exact ⟨all_isVersionChar_of_areIdentifiers hparts, all_isVersionChar_of_metadata? hfound⟩
    · cases hrest
  · obtain ⟨found, hfound, heq⟩ := Option.map_eq_some_iff.mp heq
    cases heq
    exact ⟨rfl, all_isVersionChar_of_metadata? hfound⟩

theorem all_isVersionChar_of_parts? {text : List Char} {parts : Parts}
    (heq : parts? text = some parts) :
    parts.prerelease.all isVersionChar = true ∧ parts.metadata.all isVersionChar = true := by
  obtain ⟨⟨prerelease, metadata⟩, hsuffixes, hrest⟩ := Option.bind_eq_some_iff.mp heq
  obtain ⟨-, hparts⟩ := Option.ite_none_right_eq_some.mp hrest
  cases hparts
  exact all_isVersionChar_of_suffixes? hsuffixes

/-- A version keeps its suffixes as they are written. -/
theorem exists_parts_of_parse {text : String} {version : Version}
    (heq : parse text = .ok version) :
    ∃ parts, parts? text.toList = some parts ∧
      version.prerelease = String.ofList parts.prerelease ∧
      version.metadata = String.ofList parts.metadata := by
  unfold parse at heq
  split at heq
  · cases heq
  · next parts hparts =>
    obtain ⟨major, -, hrest⟩ := bind_eq_ok_iff.mp heq
    obtain ⟨minor, -, hrest⟩ := bind_eq_ok_iff.mp hrest
    obtain ⟨patch, -, hrest⟩ := bind_eq_ok_iff.mp hrest
    split at hrest
    · cases hrest
    · cases hrest
      exact ⟨parts, hparts, rfl, rfl⟩

theorem within_decimal (value : Nat) : Text.Within isVersionChar (Text.decimal value) := by
  have htext : Text.decimal value = String.ofList (Nat.toDigits 10 value) := rfl
  rw [htext, Text.Within, String.toList_ofList, List.all_eq_true]
  intro c hc
  have hdigit := Nat.isDigit_of_mem_toDigits (by decide) (by decide) hc
  simp [isVersionChar, isIdentifierChar, Char.isAlphanum, hdigit]

/-- The text of a version has no characters that end a line. -/
theorem within_text {text : String} {version : Version} (heq : parse text = .ok version) :
    Text.Within isVersionChar version.text := by
  obtain ⟨parts, hparts, hprerelease, hmetadata⟩ := exists_parts_of_parse heq
  obtain ⟨hpreChars, hmetaChars⟩ := all_isVersionChar_of_parts? hparts
  have hpre : Text.Within isVersionChar version.prerelease := by
    rwa [hprerelease, Text.Within, String.toList_ofList]
  have hmeta : Text.Within isVersionChar version.metadata := by
    rwa [hmetadata, Text.Within, String.toList_ofList]
  have hnote : ∀ {mark note : String}, Text.Within isVersionChar mark →
      Text.Within isVersionChar note →
      Text.Within isVersionChar (if note.isEmpty then "" else mark ++ note) := by
    intro mark note hmark hnote
    split
    · rfl
    · exact Text.Within.append_iff.mpr ⟨hmark, hnote⟩
  have hmarks : Text.Within isVersionChar "." ∧ Text.Within isVersionChar "-" ∧
      Text.Within isVersionChar "+" := by decide
  simp only [Version.text, Text.Within.append_iff, within_decimal, hmarks, hnote hmarks.2.1 hpre,
    hnote hmarks.2.2 hmeta, and_self]

end Version

/-! ## Ends of lines -/

namespace Text

/-- The characters that end a line of a script, and with it a comment. -/
def endsLine (c : Char) : Bool :=
  c == '\n' || c == '\r' || c == '\u2028' || c == '\u2029'

/-- The text is a comment that reaches to its end. -/
def IsCommentLine (text : String) : Prop :=
  ∃ inner, text = "// " ++ inner ++ "\n" ∧ ∀ c ∈ inner.toList, endsLine c = false

theorem lines_ne_nil (text : String) : lines text ≠ [] := by
  simp [lines, List.splitOn_ne_nil]

/-- A text up to a line feed is the first line exactly if it has no other line feed. -/
theorem head?_lines_append_newline (front rest : String) :
    (lines (front ++ "\n" ++ rest)).head? = some front ↔ '\n' ∉ front.toList := by
  rw [lines_append_newline, List.head?_append_of_ne_nil _ (lines_ne_nil front)]
  constructor
  · intro hhead
    exact not_mem_of_mem_lines (List.mem_of_mem_head? hhead)
  · intro hline
    rw [lines_of_not_mem hline]
    rfl

end Text

theorem Version.endsLine_eq_false {c : Char} (hc : isVersionChar c = true) :
    Text.endsLine c = false := by
  apply Bool.eq_false_iff.mpr
  intro hend
  simp only [Text.endsLine, Bool.or_eq_true, beq_iff_eq] at hend
  rcases hend with ((rfl | rfl) | rfl) | rfl
  all_goals exact absurd hc (by decide)

/-! ## Headers -/

namespace Manifest

/-- What the header says of the version. -/
def versionNote (manifest : Manifest) : String :=
  match Version.parse manifest.version with
  | .ok version => " v" ++ version.text
  | .error _ => ""

/-- The header between the slashes and the line feed. -/
def headerText (manifest : Manifest) : String :=
  "Code generated by classjs from " ++ manifest.package ++ manifest.versionNote
    ++ ". DO NOT EDIT."

theorem header_eq (manifest : Manifest) :
    manifest.header = "// " ++ manifest.headerText ++ "\n" := by
  calc
    manifest.header = "// " ++ "Code generated by classjs from " ++ manifest.package
        ++ manifest.versionNote ++ (". DO NOT EDIT." ++ "\n") := rfl
    _ = "// " ++ ("Code generated by classjs from " ++ manifest.package ++ manifest.versionNote
        ++ ". DO NOT EDIT.") ++ "\n" := by simp only [String.append_assoc]

/-- Nothing after the package ends the line of the header. -/
theorem endsLine_versionNote (manifest : Manifest) :
    ∀ c ∈ manifest.versionNote.toList, Text.endsLine c = false := by
  unfold versionNote
  split
  · next version hversion =>
    intro c hc
    have hnote : Text.Within Version.isVersionChar version.text := Version.within_text hversion
    rw [String.toList_append, List.mem_append] at hc
    rcases hc with hmark | hc
    · have hmarks : " v".toList.all (!Text.endsLine ·) = true := by decide
      simpa using List.all_eq_true.mp hmarks c hmark
    · exact Version.endsLine_eq_false (List.all_eq_true.mp hnote c hc)
  · simp

/-- Only the package can bring the end of a line into the header. -/
theorem filter_endsLine_headerText (manifest : Manifest) :
    manifest.headerText.toList.filter Text.endsLine =
      manifest.package.toList.filter Text.endsLine := by
  have hnote : manifest.versionNote.toList.filter Text.endsLine = [] := by
    rw [List.filter_eq_nil_iff]
    intro c hc
    rw [manifest.endsLine_versionNote c hc]
    decide
  have hfront : "Code generated by classjs from ".toList.filter Text.endsLine = [] := by decide
  have hback : ". DO NOT EDIT.".toList.filter Text.endsLine = [] := by decide
  -- A rewrite with the definition would compute with the literals in it.
  change ("Code generated by classjs from " ++ manifest.package ++ manifest.versionNote
    ++ ". DO NOT EDIT.").toList.filter _ = _
  simp only [String.toList_append, List.filter_append, hnote, hfront, hback,
    List.append_nil, List.nil_append]

theorem count_newline_headerText (manifest : Manifest) :
    ("// " ++ manifest.headerText).toList.count '\n' = manifest.package.toList.count '\n' := by
  have hslashes : "// ".toList.count '\n' = 0 := rfl
  have hnewline : Text.endsLine '\n' = true := rfl
  rw [String.toList_append, List.count_append, hslashes, Nat.zero_add,
    ← List.count_filter hnewline, filter_endsLine_headerText, List.count_filter hnewline]

/-- The header is the first line of a linked script exactly if the package has no line feed. -/
theorem head?_lines_link (manifest : Manifest) (units : List UnitScript) :
    (Text.lines (manifest.link units)).head? = some ("// " ++ manifest.headerText) ↔
      '\n' ∉ manifest.package.toList := by
  rw [link, header_eq, Text.head?_lines_append_newline, ← List.count_eq_zero,
    count_newline_headerText, List.count_eq_zero]

/-- The header is one comment exactly if nothing in the package ends the line. -/
theorem isCommentLine_header_iff (manifest : Manifest) :
    Text.IsCommentLine manifest.header ↔
      ∀ c ∈ manifest.package.toList, Text.endsLine c = false := by
  have hpackage : (∀ c ∈ manifest.package.toList, Text.endsLine c = false) ↔
      ∀ c ∈ manifest.headerText.toList, Text.endsLine c = false := by
    have hfilter := manifest.filter_endsLine_headerText
    simp only [← Bool.not_eq_true, ← List.filter_eq_nil_iff, hfilter]
  rw [hpackage]
  constructor
  · rintro ⟨inner, hinner, hends⟩
    rw [header_eq, String.append_left_inj, String.append_right_inj] at hinner
    rwa [hinner]
  · intro hends
    exact ⟨manifest.headerText, manifest.header_eq, hends⟩

end Manifest

/-- The header is a comment that ends with a line feed.  It is one line, and the first line of
what is linked behind it, exactly if the package has no line feed in it, and it is one comment
exactly if no character of the package ends a line. -/
theorem header_breaks_with_package (manifest : Manifest) :
    (∃ text, manifest.header = "// " ++ text ++ "\n") ∧
      manifest.header.toList.count '\n' = manifest.package.toList.count '\n' + 1 ∧
      (∀ units, (Text.lines (manifest.link units)).head?.map (· ++ "\n") =
        some manifest.header ↔ '\n' ∉ manifest.package.toList) ∧
      (Text.IsCommentLine manifest.header ↔
        ∀ c ∈ manifest.package.toList, Text.endsLine c = false) := by
  refine ⟨⟨manifest.headerText, manifest.header_eq⟩, ?_, ?_, manifest.isCommentLine_header_iff⟩
  · rw [manifest.header_eq, String.toList_append, List.count_append,
      manifest.count_newline_headerText]
    rfl
  · intro units
    rw [← manifest.head?_lines_link units, manifest.header_eq, Option.map_eq_some_iff]
    simp only [String.append_left_inj, exists_eq_right]

/-- A manifest that is accepted, with a package of two lines. -/
def Manifest.twoLinePackage : Manifest := ⟨"zoo\nx", "1.0.0", ""⟩

/-- The rest of a package of two lines is no comment any more. -/
theorem header_leaves_comment :
    Manifest.twoLinePackage.validate = .ok () ∧
      ¬Text.IsCommentLine Manifest.twoLinePackage.header ∧
      Text.lines (Manifest.twoLinePackage.link []) =
        ["// Code generated by classjs from zoo", "x v1.0.0. DO NOT EDIT.", ""] := by
  refine ⟨by decide, ?_, rfl⟩
  rw [Manifest.isCommentLine_header_iff]
  intro hends
  exact absurd (hends '\n' (by decide)) (by decide)

end ClassLang
