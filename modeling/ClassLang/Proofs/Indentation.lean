import ClassLang.Proofs.Layout

/-!
# Indentation of scripts

The tabs of a script go with its braces.  A line has a tab for every brace that is
open before it, and one less if it starts with the brace that closes the last of
them.  The braces are balanced, line after line.

This holds of all texts with the layout of scripts.  It is shown by reading them
character by character, with the number of open braces kept.
-/

namespace ClassLang

namespace Text

/-- The number of braces that some lines open, less the number that they close. -/
def openBraces (lines : List String) : Int :=
  ((lines.flatMap String.toList).count '\x7b' : Int) - (lines.flatMap String.toList).count '\x7d'

/-- The number of tabs at the start of a line. -/
def leadingTabs (line : String) : Nat :=
  (line.toList.takeWhile (· == '\t')).length

/-- Whether the first character behind the tabs of a line is a closing brace. -/
def startsClosing (line : String) : Bool :=
  (line.toList.dropWhile (· == '\t')).head? == some '\x7d'

/-- Some lines are indented by their braces, where `first` braces are open before
them and `last` behind them. -/
structure IsIndented (first : Int) (lines : List String) (last : Int) : Prop where
  nonneg : ∀ count, 0 ≤ first + openBraces (lines.take count)
  total : first + openBraces lines = last
  tabs : ∀ count line, lines[count]? = some line →
    (leadingTabs line : Int) =
      first + openBraces (lines.take count) - (if startsClosing line then 1 else 0)

/-! ## Reading a layout -/

/-- How far a line has been read that had `depth` braces open before it: some of its
tabs, or more than that, where the braces in it count. -/
inductive Column where
  | margin (depth tabs : Nat)
  | inside (depth : Nat)

namespace Column

/-- A character that is no tab, where `depth` braces are open. -/
def pass (depth : Nat) (c : Char) : Option Column :=
  if c = '\n' then some (.margin depth 0)
  else if c = '\x7b' then some (.inside (depth + 1))
  else if c = '\x7d' then if depth = 0 then none else some (.inside (depth - 1))
  else some (.inside depth)

/-- The next character.  The first one that is no tab must come behind the right
number of tabs. -/
def step : Column → Char → Option Column
  | .inside depth, c => pass depth c
  | .margin depth tabs, c =>
    if c = '\t' then some (.margin depth (tabs + 1))
    else if tabs + (if c = '\x7d' then 1 else 0) = depth then pass depth c
    else none

/-- A text leads from one column to another. -/
def Leads (text : String) (first last : Column) : Prop :=
  text.toList.foldlM step first = some last

/-- Behind the tabs of a line of the given depth. -/
def IsAt (depth : Nat) (column : Column) : Prop :=
  column = .margin depth depth ∨ column = .inside depth

variable {depth : Nat} {first middle last : Column} {left right text : String}

theorem Leads.append (hleft : Leads left first middle) (hright : Leads right middle last) :
    Leads (left ++ right) first last := by
  rw [Leads, String.toList_append, List.foldlM_append, hleft]
  exact hright

theorem step_of_isAt {c : Char} (hcolumn : IsAt depth first) (htab : c ≠ '\t')
    (hclose : c ≠ '\x7d') : first.step c = pass depth c := by
  rcases hcolumn with rfl | rfl
  · simp [step, htab, hclose]
  · rfl

/-- A text that stays inside a line stays at its depth. -/
theorem leads_inline (htext : Within isInlineChar text) (hfirst : IsAt depth first) :
    ∃ last, IsAt depth last ∧ Leads text first last := by
  unfold Leads
  unfold Within at htext
  generalize text.toList = chars at htext
  induction chars generalizing first with
  | nil => exact ⟨first, hfirst, rfl⟩
  | cons c chars ih =>
    rw [List.all_cons, Bool.and_eq_true] at htext
    have hc : c ≠ '\t' ∧ c ≠ '\n' ∧ c ≠ '\x7b' ∧ c ≠ '\x7d' := by
      simpa [isInlineChar, not_or] using htext.1
    have hstep : first.step c = some (.inside depth) := by
      rw [step_of_isAt hfirst hc.1 hc.2.2.2]
      simp [pass, hc]
    rw [List.foldlM_cons, hstep]
    exact ih (.inr rfl) htext.2

theorem leads_indentation (depth tabs : Nat) :
    Leads (indentation tabs) (.margin depth 0) (.margin depth tabs) := by
  induction tabs with
  | zero => rfl
  | succ tabs ih =>
    have htext : indentation (tabs + 1) = indentation tabs ++ "\t" := by
      simp [indentation, List.replicate_succ']
    rw [htext]
    exact ih.append rfl

/-- An opening brace leads one deeper. -/
theorem leads_open (hfirst : IsAt depth first) : Leads "\x7b" first (.inside (depth + 1)) := by
  have hstep : first.step '\x7b' = some (.inside (depth + 1)) :=
    step_of_isAt hfirst (by decide) (by decide)
  simp [Leads, hstep]

/-- A line break leads to the margin, where tabs are counted. -/
theorem leads_newline (hfirst : IsAt depth first) : Leads "\n" first (.margin depth 0) := by
  have hstep : first.step '\n' = some (.margin depth 0) :=
    step_of_isAt hfirst (by decide) (by decide)
  simp [Leads, hstep]

/-- A closing brace is one tab further out than what it closes. -/
theorem leads_close (depth : Nat) : Leads "\x7d" (.margin (depth + 1) depth) (.inside depth) := by
  simp [Leads, step, pass]

mutual

/-- A phrase stays at its depth. -/
theorem leads_of_isPhrase : ∀ {depth : Nat} {text : String}, IsPhrase depth text →
    ∀ {first : Column}, IsAt depth first → ∃ last, IsAt depth last ∧ Leads text first last
  | _, _, .inline htext, _, hfirst => leads_inline htext.chars hfirst
  | _, _, .append hleft hright, _, hfirst => by
    obtain ⟨middle, hmiddle, hleads⟩ := leads_of_isPhrase hleft hfirst
    obtain ⟨last, hlast, hrest⟩ := leads_of_isPhrase hright hmiddle
    exact ⟨last, hlast, hleads.append hrest⟩
  | depth, _, .emptyBraces, first, hfirst => by
    have hclose : Leads "\x7d" (.inside (depth + 1)) (.inside depth) := by
      simp [Leads, step, pass]
    exact ⟨.inside depth, .inr rfl, (leads_open hfirst).append hclose⟩
  | depth, _, .braces hinner, first, hfirst => by
    have hopen : Leads "\x7b\n" first (.margin (depth + 1) 0) :=
      (leads_open hfirst).append (leads_newline (.inr rfl))
    have hlines := hopen.append (leads_of_isLines hinner)
    have htabs := hlines.append (leads_indentation (depth + 1) depth)
    exact ⟨.inside depth, .inr rfl, htabs.append (leads_close depth)⟩

/-- Whole lines lead from the start of a line to the start of a line. -/
theorem leads_of_isLines : ∀ {depth : Nat} {text : String}, IsLines depth text →
    Leads text (.margin depth 0) (.margin depth 0)
  | _, _, .none => rfl
  | depth, _, .line hphrase => by
    obtain ⟨last, hlast, hleads⟩ := leads_of_isPhrase hphrase (.inl rfl)
    exact ((leads_indentation depth depth).append hleads).append (leads_newline hlast)
  | _, _, .append hleft hright => (leads_of_isLines hleft).append (leads_of_isLines hright)

end

end Column

/-! ## From columns to lines -/

section Columns

variable {chars : List Char} {depth tabs : Nat} {last : Column}

theorem Column.exists_inside_of_pass {c : Char} (hc : c ≠ '\n')
    (hpass : pass depth c = some last) :
    ∃ next, last = .inside next ∧ next + [c].count '\x7d' = depth + [c].count '\x7b' := by
  unfold pass at hpass
  rw [if_neg hc] at hpass
  split at hpass
  · next hopen =>
    subst hopen
    exact ⟨depth + 1, (Option.some.inj hpass).symm, rfl⟩
  · next hopen =>
    split at hpass
    · next hclose =>
      subst hclose
      split at hpass
      · cases hpass
      · next hdepth =>
        have hnext : depth - 1 + 1 = depth := by omega
        exact ⟨depth - 1, (Option.some.inj hpass).symm, hnext⟩
    · next hclose =>
      have hcount : [c].count '\x7d' = 0 ∧ [c].count '\x7b' = 0 := by simp [hopen, hclose]
      exact ⟨depth, (Option.some.inj hpass).symm, by rw [hcount.1, hcount.2]⟩

/-- The first character of a line has to stand behind as many tabs as the depth asks
for. -/
theorem Column.of_step_margin {c : Char} (htab : c ≠ '\t')
    (hstep : (Column.margin depth tabs).step c = some last) :
    tabs + (if c = '\x7d' then 1 else 0) = depth ∧ pass depth c = some last := by
  rw [step, if_neg htab] at hstep
  by_cases htabs : tabs + (if c = '\x7d' then 1 else 0) = depth
  · rw [if_pos htabs] at hstep
    exact ⟨htabs, hstep⟩
  · rw [if_neg htabs] at hstep
    cases hstep

/-- Within a line, the number of open braces changes by those that are read. -/
theorem Column.exists_inside_of_foldlM (hline : '\n' ∉ chars)
    (hread : chars.foldlM step (.inside depth) = some last) :
    ∃ next, last = .inside next ∧ next + chars.count '\x7d' = depth + chars.count '\x7b' := by
  induction chars generalizing depth with
  | nil => exact ⟨depth, (Option.some.inj hread).symm, rfl⟩
  | cons c chars ih =>
    rw [List.mem_cons, not_or] at hline
    rw [List.foldlM_cons] at hread
    obtain ⟨middle, hpass, hrest⟩ := Option.bind_eq_some_iff.mp hread
    obtain ⟨inner, rfl, hfirst⟩ := exists_inside_of_pass (Ne.symm hline.1) hpass
    obtain ⟨next, hlast, hothers⟩ := ih hline.2 hrest
    refine ⟨next, hlast, ?_⟩
    rw [← List.singleton_append, List.count_append, List.count_append]
    omega

/-- A line that can be read to its end has the tabs that it should have. -/
theorem Column.exists_margin_of_foldlM (hline : '\n' ∉ chars)
    (hread : (chars ++ ['\n']).foldlM step (.margin depth tabs) = some last) :
    ∃ next, last = .margin next 0 ∧ next + chars.count '\x7d' = depth + chars.count '\x7b' ∧
      tabs + (chars.takeWhile (· == '\t')).length +
        (if (chars.dropWhile (· == '\t')).head? == some '\x7d' then 1 else 0) = depth := by
  induction chars generalizing tabs with
  | nil =>
    have htabs : tabs = depth := by
      by_contra hne
      simp [step, hne] at hread
    subst htabs
    have hlast : some (Column.margin tabs 0) = some last := by
      rw [← hread]
      simp [step, pass]
    exact ⟨tabs, (Option.some.inj hlast).symm, rfl, rfl⟩
  | cons c chars ih =>
    rw [List.mem_cons, not_or] at hline
    rw [List.cons_append, List.foldlM_cons] at hread
    by_cases htab : c = '\t'
    · subst htab
      obtain ⟨next, hlast, hcount, htabs⟩ := ih hline.2 hread
      refine ⟨next, hlast, by simpa using hcount, ?_⟩
      rw [List.takeWhile_cons_of_pos rfl, List.dropWhile_cons_of_pos rfl, List.length_cons]
      omega
    · -- The tabs end here, so they are counted now.
      obtain ⟨middle, hstep, hrest⟩ := Option.bind_eq_some_iff.mp hread
      obtain ⟨htabs, hpass⟩ := of_step_margin htab hstep
      obtain ⟨inner, rfl, hfirst⟩ := exists_inside_of_pass (Ne.symm hline.1) hpass
      rw [List.foldlM_append] at hrest
      obtain ⟨column, hothers, hnewline⟩ := Option.bind_eq_some_iff.mp hrest
      obtain ⟨next, rfl, hcount⟩ := exists_inside_of_foldlM hline.2 hothers
      have hlast : some (Column.margin next 0) = some last := hnewline
      refine ⟨next, (Option.some.inj hlast).symm, ?_, ?_⟩
      · rw [← List.singleton_append, List.count_append, List.count_append]
        omega
      · simpa [List.takeWhile_cons, List.dropWhile_cons, htab] using htabs

end Columns

theorem openBraces_cons (line : String) (lines : List String) :
    openBraces (line :: lines) = openBraces [line] + openBraces lines := by
  simp only [openBraces, List.flatMap_cons, List.flatMap_nil, List.append_nil, List.count_append,
    Int.natCast_add]
  omega

/-- No lines are indented and lead to the depth where they started. -/
theorem isIndented_nil (depth : Nat) : IsIndented depth [] depth where
  nonneg count := by simp [openBraces]
  total := by simp [openBraces]
  tabs count line hline := by simp at hline

/-- One more line in front: its tabs are counted at the depth where it stands, and the
other lines start at the depth that its braces lead to. -/
theorem IsIndented.cons {first last : Int} {line : String} {lines : List String}
    (hfirst : 0 ≤ first)
    (htabs : (leadingTabs line : Int) = first - (if startsClosing line then 1 else 0))
    (hlines : IsIndented (first + openBraces [line]) lines last) :
    IsIndented first (line :: lines) last where
  nonneg count := by
    cases count with
    | zero => simpa [openBraces] using hfirst
    | succ count =>
      rw [List.take_succ_cons, openBraces_cons, ← Int.add_assoc]
      exact hlines.nonneg count
  total := by
    rw [openBraces_cons, ← Int.add_assoc]
    exact hlines.total
  tabs count other hother := by
    cases count with
    | zero =>
      cases hother
      simpa [openBraces] using htabs
    | succ count =>
      rw [List.take_succ_cons, openBraces_cons, ← Int.add_assoc]
      exact hlines.tabs count other hother

/-- Lines that lead from the start of a line to the start of a line are indented by
their braces. -/
theorem isIndented_of_leads {texts : List String} {depth last : Nat}
    (hlines : ∀ line ∈ texts, '\n' ∉ line.toList)
    (hleads : Column.Leads (unlines texts) (.margin depth 0) (.margin last 0)) :
    IsIndented depth texts last := by
  induction texts generalizing depth with
  | nil =>
    cases hleads
    exact isIndented_nil last
  | cons line texts ih =>
    rw [List.forall_mem_cons] at hlines
    have htext : (unlines (line :: texts)).toList =
        (line.toList ++ ['\n']) ++ (unlines texts).toList := by simp
    rw [Column.Leads, htext, List.foldlM_append] at hleads
    obtain ⟨column, hline, hrest⟩ := Option.bind_eq_some_iff.mp hleads
    obtain ⟨next, rfl, hcount, htabs⟩ := Column.exists_margin_of_foldlM hlines.1 hline
    have hnext : (depth : Int) + openBraces [line] = next := by
      simp only [openBraces, List.flatMap_cons, List.flatMap_nil, List.append_nil]
      omega
    apply IsIndented.cons (Int.natCast_nonneg depth)
    · rw [leadingTabs, startsClosing]
      split at htabs
      · next hclosing =>
        rw [if_pos hclosing]
        omega
      · next hclosing =>
        rw [if_neg hclosing]
        omega
    · rw [hnext]
      exact ih hlines.2 hrest

end Text

open Text

/-- The script of every program that can be read is indented by its braces, which are
balanced. -/
theorem script_indented_by_braces {source file : String} {program : Program}
    (hread : Program.ofSource source file = .ok program) (target : Target) :
    ∃ script, program.script target = .ok script ∧ IsIndented 0 (lines script) 0 := by
  obtain ⟨script, heq, hlines⟩ :=
    Program.exists_lines_script (Program.isWellFormed_of_ofSource hread) target
  have hend : Column.Leads "\n" (.margin 0 0) (.margin 0 0) := rfl
  have hleads := (Column.leads_of_isLines hlines).append hend
  rw [← unlines_lines] at hleads
  exact ⟨script, heq, isIndented_of_leads (fun _ => not_mem_of_mem_lines) hleads⟩

/-- The line with the `else` closes a brace before it opens the next one, and a
declaration gets braces of its own. -/
theorem script_indented_by_braces_else :
    ∃ program script,
      Program.ofSource ("class A \x7b init() \x7b \x7d method f(bool b) void "
        ++ "\x7b if (b) \x7b break; \x7d else int x; \x7d \x7d\nbreak;") "file" = .ok program ∧
      program.script .es6 = .ok script ∧
      script = "class A \x7b\n\tconstructor() \x7b\n\t\x7d\n\tf(b) \x7b\n"
        ++ "\t\tif (b) \x7b\n\t\t\tbreak;\n\t\t\x7d else \x7b\n\t\t\tlet x;\n\t\t\x7d\n"
        ++ "\t\x7d\n\x7d\n\nbreak;\n" ∧
      IsIndented 0 (lines script) 0 := by
  have hread : Program.ofSource ("class A \x7b init() \x7b \x7d method f(bool b) void "
      ++ "\x7b if (b) \x7b break; \x7d else int x; \x7d \x7d\nbreak;") "file" =
      .ok ⟨[⟨"A", none, [], ⟨[], false, [], []⟩,
        [⟨"f", .void, [⟨.bool, "b"⟩],
          [.ifElse (.name "b") (.block [.breakLoop]) (.declare ⟨.int, "x"⟩)]⟩]⟩],
        [.breakLoop]⟩ :=
    Program.ofSource_of_source_eq (by decide) (by decide) "file"
  obtain ⟨script, hscript, hindented⟩ := script_indented_by_braces hread .es6
  exact ⟨_, script, hread, hscript, (Except.ok.inj hscript).symm, hindented⟩

end ClassLang
