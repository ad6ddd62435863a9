import ClassLang.Build.Output
import ClassLang.Proofs.Layout
import ClassLang.Proofs.Places

/-!
# Taking a linked script apart

Units are kept apart by comments, and no script has a comment of its own: a slash in
it is a division, with a space behind it.  So the comments of a linked script show
where its units are, and two lists of units that are linked to the same script are
the same.
-/

namespace ClassLang

namespace Text

/-- There are two slashes side by side. -/
def HasComment (chars : List Char) : Prop :=
  ['/', '/'] <:+: chars

/-! ## Scripts have no comments -/

theorem slashesSpaced_of_append {left right : List Char}
    (hspaced : slashesSpaced (left ++ right) = true) : slashesSpaced right = true := by
  induction left with
  | nil => exact hspaced
  | cons c chars ih =>
    rw [List.cons_append, slashesSpaced, Bool.and_eq_true] at hspaced
    exact ih hspaced.2

/-- Where slashes stand alone there is no comment. -/
theorem not_hasComment_of_slashesSpaced {chars : List Char}
    (hspaced : slashesSpaced chars = true) : ¬HasComment chars := by
  rintro ⟨before, after, rfl⟩
  rw [List.append_assoc] at hspaced
  have hslashes := slashesSpaced_of_append hspaced
  simp [slashesSpaced] at hslashes

theorem slashesSpaced_indentation (depth : Nat) :
    slashesSpaced (indentation depth).toList = true := by
  apply slashesSpaced_of_not_mem
  simp [indentation]

mutual

theorem IsPhrase.slashesSpaced : ∀ {depth : Nat} {text : String}, IsPhrase depth text →
    Text.slashesSpaced text.toList = true
  | _, _, .inline htext => htext.slashes
  | _, _, .append hleft hright => by
    rw [String.toList_append]
    exact slashesSpaced_append hleft.slashesSpaced hright.slashesSpaced
  | _, _, .emptyBraces => rfl
  | depth, _, .braces hinner => by
    simp only [String.toList_append]
    have hopen : Text.slashesSpaced "\x7b\n".toList = true := rfl
    have hclose : Text.slashesSpaced "\x7d".toList = true := rfl
    have hlines := slashesSpaced_append hopen hinner.slashesSpaced
    exact slashesSpaced_append (slashesSpaced_append hlines (slashesSpaced_indentation depth))
      hclose

/-- Scripts have no two slashes side by side. -/
theorem IsLines.slashesSpaced : ∀ {depth : Nat} {text : String}, IsLines depth text →
    Text.slashesSpaced text.toList = true
  | _, _, .none => rfl
  | depth, _, .line hphrase => by
    have hend : Text.slashesSpaced "\n".toList = true := rfl
    simp only [scriptLine, String.toList_append]
    exact slashesSpaced_append
      (slashesSpaced_append (slashesSpaced_indentation depth) hphrase.slashesSpaced) hend
  | _, _, .append hleft hright => by
    rw [String.toList_append]
    exact slashesSpaced_append hleft.slashesSpaced hright.slashesSpaced

end

/-! ## Cutting texts -/

section Cutting

variable {left right first last : List Char}

/-- Two ways to cut a text in two are the same if none of the first parts can go on
where the other one ends. -/
theorem append_inj_of_between (heq : left ++ first = right ++ last)
    (hleft : ∀ between, left = right ++ between → last = between ++ first → between = [])
    (hright : ∀ between, right = left ++ between → first = between ++ last → between = []) :
    left = right ∧ first = last := by
  rcases List.append_eq_append_iff.mp heq with ⟨between, hlong, hrest⟩ | ⟨between, hlong, hrest⟩
  · have hnone := hright between hlong hrest
    subst hnone
    exact ⟨by simpa using hlong.symm, hrest⟩
  · have hnone := hleft between hlong hrest
    subst hnone
    exact ⟨by simpa using hlong, hrest.symm⟩

theorem append_newline_inj (hleft : '\n' ∉ left) (hright : '\n' ∉ right)
    (heq : left ++ '\n' :: first = right ++ '\n' :: last) : left = right ∧ first = last := by
  have hbetween : ∀ {long short between rest more : List Char}, '\n' ∉ long →
      long = short ++ between → '\n' :: rest = between ++ '\n' :: more → between = [] := by
    intro long short between rest more hline hlong hrest
    cases between with
    | nil => rfl
    | cons c between =>
      cases List.head_eq_of_cons_eq hrest
      simp [hlong] at hline
  have hsame := append_inj_of_between heq (fun _ => hbetween hleft) (fun _ => hbetween hright)
  exact ⟨hsame.1, List.tail_eq_of_cons_eq hsame.2⟩

/-- The end of the text, or a line with a comment after an empty line. -/
def StartsUnit (chars : List Char) : Prop :=
  chars = [] ∨ ∃ rest, chars = '\n' :: '/' :: '/' :: rest

/-- A script without comments ends where the next unit starts. -/
theorem append_unit_inj (hleft : ¬HasComment left) (hright : ¬HasComment right)
    (hfirst : StartsUnit first) (hlast : StartsUnit last)
    (heq : left ++ first = right ++ last) : left = right ∧ first = last := by
  have hbetween : ∀ {long short between rest more : List Char}, ¬HasComment long →
      StartsUnit rest → StartsUnit more → long = short ++ between → rest = between ++ more →
      between = [] := by
    intro long short between rest more hplain hrest hmore hlong heq
    rcases hrest with rfl | ⟨tail, rfl⟩
    · exact (List.append_eq_nil_iff.mp heq.symm).1
    · -- What is between the two ends either cuts the start of a unit in two, or has
      -- both its slashes.
      rcases between with _ | ⟨_, _ | ⟨_, _ | ⟨_, between⟩⟩⟩
      · rfl
      · rcases hmore with rfl | ⟨_, rfl⟩ <;> simp at heq
      · rcases hmore with rfl | ⟨_, rfl⟩ <;> simp at heq
      · simp only [List.cons_append, List.cons.injEq] at heq
        obtain ⟨rfl, rfl, rfl, -⟩ := heq
        refine absurd ⟨short ++ ['\n'], between, ?_⟩ hplain
        simp [hlong]
  exact append_inj_of_between heq (fun _ => hbetween hleft hlast hfirst)
    (fun _ => hbetween hright hfirst hlast)

end Cutting

end Text

/-! ## Units -/

/-- The script of the unit was made from a source. -/
def UnitScript.IsCompiled (target : Target) (unit : UnitScript) : Prop :=
  ∃ name source compiled, CompiledUnit.ofSource target name source = .ok compiled ∧
    compiled.script = unit.script

/-- The unit can be found again behind its comment. -/
structure UnitScript.IsApart (unit : UnitScript) : Prop where
  name : '\n' ∉ unit.name.toList
  script : ¬Text.HasComment unit.script.toList

theorem UnitScript.toList_linked (unit : UnitScript) :
    unit.linked.toList =
      '\n' :: '/' :: '/' :: ' ' :: (unit.name.toList ++ '\n' :: unit.script.toList) := by
  simp [linked]

theorem startsUnit_linked (units : List UnitScript) :
    Text.StartsUnit (String.join (units.map UnitScript.linked)).toList := by
  cases units with
  | nil => exact .inl rfl
  | cons unit units =>
    rw [List.map_cons, String.join_cons, String.toList_append, unit.toList_linked]
    exact .inr ⟨_, rfl⟩

/-- Linked units come apart one by one, by induction on the units. -/
theorem eq_of_linked_eq {units others : List UnitScript} (hunits : ∀ unit ∈ units, unit.IsApart)
    (hothers : ∀ unit ∈ others, unit.IsApart)
    (heq : String.join (units.map UnitScript.linked) =
      String.join (others.map UnitScript.linked)) : units = others := by
  induction units generalizing others with
  | nil =>
    cases others with
    | nil => rfl
    | cons other others => simp [← String.toList_inj, UnitScript.toList_linked] at heq
  | cons unit units ih =>
    cases others with
    | nil => simp [← String.toList_inj, UnitScript.toList_linked] at heq
    | cons other others =>
      rw [List.forall_mem_cons] at hunits hothers
      have hchars : unit.name.toList ++ '\n' :: (unit.script.toList ++
            (String.join (units.map UnitScript.linked)).toList) =
          other.name.toList ++ '\n' :: (other.script.toList ++
            (String.join (others.map UnitScript.linked)).toList) := by
        simpa [← String.toList_inj, UnitScript.toList_linked] using heq
      obtain ⟨hname, hrest⟩ := Text.append_newline_inj hunits.1.name hothers.1.name hchars
      obtain ⟨hscript, hlinked⟩ := Text.append_unit_inj hunits.1.script hothers.1.script
        (startsUnit_linked units) (startsUnit_linked others) hrest
      have hunit : unit = other := by
        cases unit
        cases other
        rw [UnitScript.mk.injEq]
        exact ⟨String.toList_inj.mp hname, String.toList_inj.mp hscript⟩
      rw [hunit, ih hunits.2 hothers.2 (String.toList_inj.mp hlinked)]

/-- A program has a statement, and the line of its last statement is the last line. -/
theorem Program.exists_script_eq_append_newline {program : Program} {target : Target}
    {script : String} (hstmts : program.stmts ≠ []) (heq : program.script target = .ok script) :
    ∃ front, script = front ++ "\n" := by
  obtain ⟨classes, -, hrest⟩ := bind_eq_ok_iff.mp heq
  obtain ⟨scripts, hscripts, hscript⟩ := bind_eq_ok_iff.mp hrest
  have hne : scripts ≠ [] := by
    rintro rfl
    cases hcases : program.stmts with
    | nil => exact hstmts hcases
    | cons stmt stmts =>
      rw [hcases, Stmt.scripts] at hscripts
      obtain ⟨_, -, hothers⟩ := bind_eq_ok_iff.mp hscripts
      obtain ⟨_, -, hlist⟩ := bind_eq_ok_iff.mp hothers
      cases hlist
  rcases List.eq_nil_or_concat scripts with rfl | ⟨front, last, rfl⟩
  · exact absurd rfl hne
  · refine ⟨String.join (classes.map (· ++ "\n")) ++ String.join (front.map (· ++ "\n")) ++ last,
      ?_⟩
    rw [← Except.ok.inj hscript]
    simp [String.append_assoc]

/-- A compiled unit has the script of a well-formed program. -/
theorem CompiledUnit.exists_program {target : Target} {name source : String} {unit : CompiledUnit}
    (heq : CompiledUnit.ofSource target name source = .ok unit) :
    unit.program.isWellFormed = true ∧ unit.program.script target = .ok unit.script := by
  obtain ⟨program, hprogram, hrest⟩ := bind_eq_ok_iff.mp heq
  obtain ⟨script, hscript, hunit⟩ := bind_eq_ok_iff.mp hrest
  rw [mapError_eq_ok_iff] at hprogram hscript
  cases hunit
  exact ⟨Program.isWellFormed_of_ofSource hprogram, hscript⟩

/-- The script made from a source has no comment. -/
theorem CompiledUnit.not_hasComment {target : Target} {name source : String}
    {unit : CompiledUnit} (heq : CompiledUnit.ofSource target name source = .ok unit) :
    ¬Text.HasComment unit.script.toList := by
  obtain ⟨hwell, hscript⟩ := exists_program heq
  obtain ⟨script, hsame, hlines⟩ := Program.exists_lines_script hwell target
  cases hscript.symm.trans hsame
  exact Text.not_hasComment_of_slashesSpaced hlines.slashesSpaced

theorem CompiledUnit.exists_script_eq_append_newline {target : Target} {name source : String}
    {unit : CompiledUnit} (heq : CompiledUnit.ofSource target name source = .ok unit) :
    ∃ front, unit.script = front ++ "\n" := by
  obtain ⟨hwell, hscript⟩ := exists_program heq
  simp only [Program.isWellFormed, Bool.and_eq_true] at hwell
  exact Program.exists_script_eq_append_newline (by simpa using hwell.1.2) hscript

/-- Compiled units can be told apart if their names stay in a line. -/
theorem UnitScript.IsCompiled.isApart {target : Target} {unit : UnitScript}
    (hcompiled : unit.IsCompiled target) (hname : '\n' ∉ unit.name.toList) : unit.IsApart where
  name := hname
  script := by
    obtain ⟨_, _, compiled, heq, hscript⟩ := hcompiled
    rw [← hscript]
    exact CompiledUnit.not_hasComment heq

/-- Compiled scripts have no comments and end with their last line.  So units whose
names stand on one line can be told from the script they are linked to. -/
theorem linked_units_come_apart (manifest : Manifest) (target : Target) :
    (∀ name source unit, CompiledUnit.ofSource target name source = .ok unit →
      ¬Text.HasComment unit.script.toList ∧ ∃ front, unit.script = front ++ "\n") ∧
      ∀ units others : List UnitScript,
        (∀ unit ∈ units ++ others, unit.IsCompiled target ∧ '\n' ∉ unit.name.toList) →
          (manifest.link units = manifest.link others ↔ units = others) := by
  constructor
  · intro name source unit heq
    exact ⟨CompiledUnit.not_hasComment heq, CompiledUnit.exists_script_eq_append_newline heq⟩
  · intro units others hcompiled
    have hapart : ∀ unit ∈ units ++ others, unit.IsApart := fun unit hmem =>
      (hcompiled unit hmem).1.isApart (hcompiled unit hmem).2
    rw [List.forall_mem_append] at hapart
    constructor
    · intro heq
      apply eq_of_linked_eq hapart.1 hapart.2
      exact (String.append_right_inj _).mp heq
    · intro heq
      rw [heq]

theorem UnitScript.isCompiled_of_script {unit : UnitScript} {target : Target} (program : Program)
    (hwell : program.isWellFormed = true) (hscript : program.script target = .ok unit.script) :
    unit.IsCompiled target :=
  ⟨unit.name, program.source, _,
    CompiledUnit.ofSource_eq_ok (Program.ofSource_of_source_eq hwell rfl unit.name) hscript, rfl⟩

/-- The slash of a division does not hide where the first of two units ends. -/
theorem linked_units_come_apart_division :
    ∃ units others : List UnitScript,
      units = [⟨"a.cls", "(6) / (2);\n"⟩, ⟨"b.cls", "break;\n"⟩] ∧
      others = [⟨"a.cls", "(6) / (2);\nbreak;\n"⟩] ∧
      (∀ unit ∈ units ++ others, unit.IsCompiled .es5 ∧ '\n' ∉ unit.name.toList) ∧
      Manifest.fallback.link units ≠ Manifest.fallback.link others := by
  have hdivision : UnitScript.IsCompiled .es5 ⟨"a.cls", "(6) / (2);\n"⟩ :=
    UnitScript.isCompiled_of_script
      ⟨[], [.expression (.binary (.int 6) .divide (.int 2))]⟩ (by decide) rfl
  have hbreak : UnitScript.IsCompiled .es5 ⟨"b.cls", "break;\n"⟩ :=
    UnitScript.isCompiled_of_script ⟨[], [.breakLoop]⟩ (by decide) rfl
  have hboth : UnitScript.IsCompiled .es5 ⟨"a.cls", "(6) / (2);\nbreak;\n"⟩ :=
    UnitScript.isCompiled_of_script
      ⟨[], [.expression (.binary (.int 6) .divide (.int 2)), .breakLoop]⟩ (by decide) rfl
  have hcompiled : ∀ unit ∈ [⟨"a.cls", "(6) / (2);\n"⟩, ⟨"b.cls", "break;\n"⟩] ++
        [(⟨"a.cls", "(6) / (2);\nbreak;\n"⟩ : UnitScript)],
      unit.IsCompiled .es5 ∧ '\n' ∉ unit.name.toList := by
    simp only [List.cons_append, List.nil_append, List.forall_mem_cons]
    exact ⟨⟨hdivision, by decide⟩, ⟨hbreak, by decide⟩, ⟨hboth, by decide⟩, by simp⟩
  refine ⟨_, _, rfl, rfl, hcompiled, ?_⟩
  intro heq
  have hsame := ((linked_units_come_apart .fallback .es5).2 _ _ hcompiled).mp heq
  exact absurd hsame (by decide)

end ClassLang
