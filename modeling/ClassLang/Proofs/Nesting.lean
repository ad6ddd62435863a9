import ClassLang.Proofs.Lines
import ClassLang.Proofs.WellFormed
import ClassLang.Proofs.Spelling

/-!
# Scripts at other levels

The script of an expression stands on one line, whatever its names are.  So does
all of the script of a statement that is not in a block, and a block puts its
statements on lines of their own.  One level deeper the script is therefore the
same, with one more tab behind every line feed.
-/

namespace ClassLang

/-- What holds of texts, of the comma and of all that is put together from them, holds
of the texts with commas between them. -/
theorem Text.commaSeparated_induction {holds : String → Prop} (hempty : holds "")
    (hcomma : holds ", ")
    (happend : ∀ {left right : String}, holds left → holds right → holds (left ++ right))
    {texts : List String} (htexts : ∀ text ∈ texts, holds text) :
    holds (commaSeparated texts) := by
  induction texts with
  | nil => exact hempty
  | cons first texts ih =>
    rw [List.forall_mem_cons] at htexts
    cases texts with
    | nil =>
      rw [commaSeparated, String.intercalate_singleton]
      exact htexts.1
    | cons second texts =>
      rw [commaSeparated, String.intercalate_cons_cons]
      exact happend (happend htexts.1 hcomma) (ih htexts.2)

/-! ## The pieces of expressions -/

/-- What the templates of expressions have besides the scripts of the parts. -/
def scriptPieces : List String :=
  ["", "true", "false", "this", "console.log(", "new ", "()", "(", ", ", ")", ".", " + ", " - ",
    " * ", " / "]

/-- A property of texts that comes from the names, the numbers and the pieces of
templates in them. -/
structure IsOfPieces (holds : String → Prop) : Prop where
  append : ∀ {left right : String}, holds left → holds right → holds (left ++ right)
  name : ∀ {text : String}, Lexeme.isName text = true → holds text
  decimal : ∀ {value : Int}, 0 ≤ value → holds (Text.decimal value)
  piece : ∀ {text : String}, text ∈ scriptPieces → holds text

namespace IsOfPieces

variable {holds : String → Prop}

theorem parenthesized {script : String} (hpieces : IsOfPieces holds) (hscript : holds script) :
    holds (ClassLang.parenthesized script) :=
  hpieces.append (hpieces.append (hpieces.piece (by decide)) hscript) (hpieces.piece (by decide))

theorem operator {op : Op} (hpieces : IsOfPieces holds) (hop : op ∈ Grammar.arithmetic) :
    holds (" " ++ op.source ++ " ") := by
  apply hpieces.piece
  cases op with
  | missing | member => exact absurd hop (by decide)
  | plus | minus | times | divide => decide

theorem commaSeparated {texts : List String} (hpieces : IsOfPieces holds)
    (htexts : ∀ text ∈ texts, holds text) : holds (Text.commaSeparated texts) :=
  Text.commaSeparated_induction (hpieces.piece (by decide)) (hpieces.piece (by decide))
    hpieces.append htexts

mutual

/-- Every expression without holes has a script, and it has the property. -/
theorem exists_script (hpieces : IsOfPieces holds) : ∀ exp : Exp, exp.isWellFormed = true →
    ∃ script, exp.script = .ok script ∧ holds script
  | .missing, hwell => by cases hwell
  | .int value, hwell => by
    simp only [Exp.isWellFormed, Bool.and_eq_true, decide_eq_true_eq] at hwell
    exact ⟨_, rfl, hpieces.decimal hwell.1⟩
  | .bool value, _ => by
    refine ⟨_, rfl, hpieces.piece ?_⟩
    cases value <;> decide
  | .this, _ => ⟨_, rfl, hpieces.piece (by decide)⟩
  | .name text, hwell => ⟨_, rfl, hpieces.name hwell⟩
  | .println value, hwell => by
    obtain ⟨script, heq, hvalue⟩ := hpieces.exists_script value hwell
    refine ⟨"console.log(" ++ script ++ ")", ?_, ?_⟩
    · rw [Exp.script, heq]
      rfl
    · apply hpieces.append _ (hpieces.piece (by decide))
      exact hpieces.append (hpieces.piece (by decide)) hvalue
  | .new className, hwell => by
    refine ⟨_, rfl, hpieces.append ?_ (hpieces.piece (by decide))⟩
    exact hpieces.append (hpieces.piece (by decide)) (hpieces.name hwell)
  | .call _ _, hwell => by cases hwell
  | .binary left op right, hwell => by
    by_cases hmember : op = .member
    · subst hmember
      rw [Exp.isWellFormed_member, Bool.and_eq_true] at hwell
      obtain ⟨leftScript, hleftEq, hleft⟩ := hpieces.exists_script left hwell.1
      obtain ⟨rightScript, hrightEq, hright⟩ := hpieces.exists_script_of_isMember right hwell.2
      refine ⟨(if left.chains then leftScript else ClassLang.parenthesized leftScript) ++ "."
        ++ rightScript, ?_, ?_⟩
      · rw [Exp.script, hleftEq, hrightEq]
        rfl
      · apply hpieces.append (hpieces.append _ (hpieces.piece (by decide))) hright
        split
        · exact hleft
        · exact hpieces.parenthesized hleft
    · have hop := Exp.mem_arithmetic_of_isWellFormed hmember hwell
      rw [Exp.isWellFormed_arithmetic hop, Bool.and_eq_true] at hwell
      obtain ⟨leftScript, hleftEq, hleft⟩ := hpieces.exists_script left hwell.1
      obtain ⟨rightScript, hrightEq, hright⟩ := hpieces.exists_script right hwell.2
      refine ⟨ClassLang.parenthesized leftScript ++ (" " ++ op.source ++ " ")
        ++ ClassLang.parenthesized rightScript, ?_, ?_⟩
      · rw [Exp.script, hleftEq, hrightEq]
        cases op with
        | missing | member => exact absurd hop (by decide)
        | plus | minus | times | divide =>
          exact congrArg Except.ok (by simp only [String.append_assoc])
      · apply hpieces.append _ (hpieces.parenthesized hright)
        exact hpieces.append (hpieces.parenthesized hleft) (hpieces.operator hop)

theorem exists_script_of_isMember (hpieces : IsOfPieces holds) :
    ∀ exp : Exp, exp.isMember = true → ∃ script, exp.script = .ok script ∧ holds script
  | .name text, hmember => ⟨_, rfl, hpieces.name hmember⟩
  | .call (.name text) args, hmember => by
    rw [Exp.isMember, Bool.and_eq_true] at hmember
    obtain ⟨scripts, heq, hargs⟩ := hpieces.exists_scripts args hmember.2
    refine ⟨text ++ "(" ++ Text.commaSeparated scripts ++ ")", ?_, ?_⟩
    · rw [Exp.script, Exp.script, heq]
      rfl
    · apply hpieces.append _ (hpieces.piece (by decide))
      apply hpieces.append _ (hpieces.commaSeparated hargs)
      exact hpieces.append (hpieces.name hmember.1) (hpieces.piece (by decide))

/-- The scripts of expressions are made of the same pieces. -/
theorem exists_scripts (hpieces : IsOfPieces holds) : ∀ exps : List Exp,
    Exp.allWellFormed exps = true →
      ∃ scripts, Exp.scripts exps = .ok scripts ∧ ∀ script ∈ scripts, holds script
  | [], _ => ⟨[], rfl, by simp⟩
  | exp :: exps, hwell => by
    rw [Exp.allWellFormed, Bool.and_eq_true] at hwell
    obtain ⟨script, heq, hexp⟩ := hpieces.exists_script exp hwell.1
    obtain ⟨scripts, hothersEq, hothers⟩ := hpieces.exists_scripts exps hwell.2
    refine ⟨script :: scripts, ?_, List.forall_mem_cons.mpr ⟨hexp, hothers⟩⟩
    rw [Exp.scripts, heq, hothersEq]
    rfl

end

end IsOfPieces

/-! ## The characters of expressions -/

/-- All characters of the text are of the given class. -/
def Text.Within (allowed : Char → Bool) (text : String) : Prop :=
  text.toList.all allowed = true

instance (allowed : Char → Bool) (text : String) : Decidable (Text.Within allowed text) :=
  inferInstanceAs (Decidable (_ = true))

namespace Text.Within

variable {allowed : Char → Bool} {left right : String}

@[simp]
theorem append_iff :
    Within allowed (left ++ right) ↔ Within allowed left ∧ Within allowed right := by
  simp [Within]

theorem commaSeparated {texts : List String} (hcomma : Within allowed ", ")
    (htexts : ∀ text ∈ texts, Within allowed text) :
    Within allowed (Text.commaSeparated texts) := by
  have hempty : Within allowed "" := rfl
  exact Text.commaSeparated_induction hempty hcomma
    (fun hleft hright => append_iff.mpr ⟨hleft, hright⟩) htexts

theorem not_mem {c : Char} {text : String} (htext : Within allowed text)
    (hc : allowed c = false) : c ∉ text.toList := by
  intro hmem
  rw [List.all_eq_true.mp htext c hmem] at hc
  cases hc

theorem mono {text : String} {more : Char → Bool} (htext : Within allowed text)
    (hmore : ∀ c, allowed c = true → more c = true) : Within more text :=
  List.all_eq_true.mpr fun c hc => hmore c (List.all_eq_true.mp htext c hc)

end Text.Within

/-- What the script of an expression has besides the characters of names. -/
def scriptMarks : List Char :=
  [' ', '(', ')', ',', '.', '+', '-', '*', '/']

def isScriptChar (c : Char) : Bool :=
  Lexeme.continuesName c || scriptMarks.contains c

theorem Lexeme.continuesName_of_isName {text : String} (hname : isName text = true) :
    Text.Within continuesName text := by
  unfold isName at hname
  split at hname
  · cases hname
  · next c chars heq =>
    simp only [Bool.and_eq_true] at hname
    obtain ⟨⟨hstart, hchars⟩, -⟩ := hname
    rw [Text.Within, heq, List.all_cons, continuesName_of_startsName hstart, hchars]
    rfl

theorem Text.continuesName_decimal {value : Int} (hvalue : 0 ≤ value) :
    Within Lexeme.continuesName (decimal value) := by
  obtain ⟨value, rfl⟩ := Int.eq_ofNat_of_zero_le hvalue
  have htext : decimal value = String.ofList (Nat.toDigits 10 value) := rfl
  rw [htext, Within, String.toList_ofList, List.all_eq_true]
  intro c hc
  exact Lexeme.continuesName_of_isAsciiDigit (all_isAsciiDigit_toDigits value c hc)

theorem isScriptChar_of_continuesName {c : Char} (hc : Lexeme.continuesName c = true) :
    isScriptChar c = true := by
  rw [isScriptChar, hc, Bool.true_or]

theorem Lexeme.within_of_isName {text : String} (hname : isName text = true) :
    Text.Within isScriptChar text :=
  (continuesName_of_isName hname).mono fun _ => isScriptChar_of_continuesName

theorem Text.within_decimal {value : Int} (hvalue : 0 ≤ value) :
    Within isScriptChar (decimal value) :=
  (continuesName_decimal hvalue).mono fun _ => isScriptChar_of_continuesName

/-- The expression has this script, which is made of the characters of
expressions. -/
structure Exp.HasLine (exp : Exp) (script : String) : Prop where
  eq : exp.script = .ok script
  within : Text.Within isScriptChar script

/-- All pieces are made of the characters of scripts. -/
theorem isOfPieces_within : IsOfPieces (Text.Within isScriptChar) where
  append hleft hright := Text.Within.append_iff.mpr ⟨hleft, hright⟩
  name := Lexeme.within_of_isName
  decimal := Text.within_decimal
  piece hpiece := by
    have hpieces : ∀ text ∈ scriptPieces, Text.Within isScriptChar text := by decide
    exact hpieces _ hpiece

/-- The script of an expression is one line. -/
theorem Exp.exists_line (exp : Exp) (hwell : exp.isWellFormed = true) :
    ∃ script, exp.HasLine script := by
  obtain ⟨script, heq, hwithin⟩ := isOfPieces_within.exists_script exp hwell
  exact ⟨script, heq, hwithin⟩

theorem Exp.HasLine.newline_not_mem {exp : Exp} {script : String} (hexp : exp.HasLine script) :
    '\n' ∉ script.toList :=
  hexp.within.not_mem (by decide)

theorem VarDec.newline_not_mem_script {dec : VarDec} (hwell : dec.isWellFormed = true) :
    '\n' ∉ dec.script.toList := by
  rw [VarDec.isWellFormed, Bool.and_eq_true] at hwell
  have hname : '\n' ∉ dec.name.toList :=
    (Lexeme.within_of_isName hwell.2).not_mem (by decide)
  simpa [VarDec.script] using hname

/-! ## Statements one level deeper -/

namespace Text

theorem indentation_succ (depth : Nat) : indentation (depth + 1) = "\t" ++ indentation depth := by
  simp [indentation, List.replicate_succ]

theorem newline_not_mem_indentation (depth : Nat) : '\n' ∉ (indentation depth).toList := by
  simp [indentation]

/-- Nesting leaves the first line alone. -/
theorem nested_append_of_line {head : String} (hline : '\n' ∉ head.toList) (text : String) :
    nested (head ++ text) = head ++ nested text := by
  rw [nested_append, nested_of_not_mem hline]

end Text

theorem nested_scriptLine (depth : Nat) (script : String) :
    "\t" ++ Text.nested (scriptLine depth script) =
      scriptLine (depth + 1) (Text.nested script) ++ "\t" := by
  have hfeed : Text.nested "\n" = "\n" ++ "\t" := by decide
  calc
    "\t" ++ Text.nested (scriptLine depth script) =
        "\t" ++ (Text.indentation depth ++ Text.nested script ++ ("\n" ++ "\t")) := by
      rw [scriptLine, Text.nested_append, hfeed,
        Text.nested_append_of_line (Text.newline_not_mem_indentation depth)]
    _ = scriptLine (depth + 1) (Text.nested script) ++ "\t" := by
      rw [scriptLine, Text.indentation_succ]
      simp only [String.append_assoc]

/-- Lines are nested by indenting each of them once more. -/
theorem nested_scriptLines (depth : Nat) (scripts : List String) :
    "\t" ++ Text.nested (String.join (scripts.map (scriptLine depth))) =
      String.join ((scripts.map Text.nested).map (scriptLine (depth + 1))) ++ "\t" := by
  induction scripts with
  | nil =>
    change "\t" ++ Text.nested "" = "" ++ "\t"
    decide
  | cons script scripts ih =>
    simp only [List.map_cons, String.join_cons, Text.nested_append]
    rw [← String.append_assoc, nested_scriptLine, String.append_assoc, ih, String.append_assoc]

/-- A block at a greater depth is the same block, nested. -/
theorem scriptBlock_succ (depth : Nat) (scripts : List String) :
    scriptBlock (depth + 1) (scripts.map Text.nested) =
      Text.nested (scriptBlock depth scripts) := by
  cases scripts with
  | nil =>
    change "\x7b\x7d" = Text.nested "\x7b\x7d"
    decide
  | cons script scripts =>
    have hopen : Text.nested "\x7b\n" = "\x7b\n" ++ "\t" := by decide
    have hclose : Text.nested (Text.indentation depth ++ "\x7d") =
        Text.indentation depth ++ "\x7d" := by
      apply Text.nested_of_not_mem
      simp [Text.newline_not_mem_indentation]
    calc
      scriptBlock (depth + 1) ((script :: scripts).map Text.nested) =
          "\x7b\n" ++ (String.join (((script :: scripts).map Text.nested).map
            (scriptLine (depth + 2))) ++ "\t") ++ (Text.indentation depth ++ "\x7d") := by
        rw [scriptBlock, Text.indentation_succ]
        simp only [List.map_cons, List.isEmpty_cons, Bool.false_eq_true, if_false,
          String.append_assoc]
      _ = Text.nested "\x7b\n" ++ Text.nested (String.join ((script :: scripts).map
            (scriptLine (depth + 1)))) ++ Text.nested (Text.indentation depth ++ "\x7d") := by
        rw [← nested_scriptLines, hopen, hclose]
        simp only [String.append_assoc]
      _ = Text.nested (scriptBlock depth (script :: scripts)) := by
        rw [← Text.nested_append, ← Text.nested_append, scriptBlock]
        simp only [List.isEmpty_cons, Bool.false_eq_true, if_false, String.append_assoc]

theorem bodyScript_succ (depth : Nat) (body : Stmt) (script : String) :
    bodyScript (depth + 1) body (Text.nested script) =
      Text.nested (bodyScript depth body script) := by
  cases body with
  | declare dec => exact scriptBlock_succ depth [script]
  | _ => rfl

theorem ok_eq_map_nested {line : String} (hline : '\n' ∉ line.toList) :
    (Except.ok line : Except ScriptError String) = (Except.ok line).map Text.nested :=
  congrArg Except.ok (Text.nested_of_not_mem hline).symm

mutual

/-- One level deeper, a statement has one more tab behind every line feed. -/
theorem Stmt.script_succ (depth : Nat) : ∀ stmt : Stmt, stmt.isWellFormed = true →
    stmt.script (depth + 1) = (stmt.script depth).map Text.nested
  | .missing, hwell => by cases hwell
  | .declare dec, hwell => by
    rw [Stmt.script, Stmt.script]
    exact ok_eq_map_nested (VarDec.newline_not_mem_script hwell)
  | .assign target value, hwell => by
    simp only [Stmt.isWellFormed, Bool.and_eq_true] at hwell
    obtain ⟨targetScript, htarget⟩ := target.exists_line hwell.1.2
    obtain ⟨valueScript, hvalue⟩ := value.exists_line hwell.2
    rw [Stmt.script, Stmt.script, htarget.eq, hvalue.eq]
    apply ok_eq_map_nested
    simp [htarget.newline_not_mem, hvalue.newline_not_mem]
  | .expression exp, hwell => by
    obtain ⟨script, hexp⟩ := exp.exists_line hwell
    rw [Stmt.script, Stmt.script, hexp.eq]
    apply ok_eq_map_nested
    simp [hexp.newline_not_mem]
  | .whileLoop cond body, hwell => by
    rw [Stmt.isWellFormed, Bool.and_eq_true] at hwell
    obtain ⟨condScript, hcond⟩ := cond.exists_line hwell.1
    have hhead : '\n' ∉ ("while (" ++ condScript ++ ") ").toList := by
      simp [hcond.newline_not_mem]
    rw [Stmt.script, Stmt.script, hcond.eq, body.script_succ depth hwell.2]
    cases body.script depth with
    | error error => rfl
    | ok script =>
      apply congrArg Except.ok
      rw [bodyScript_succ, Text.nested_append_of_line hhead]
  | .breakLoop, _ => by
    rw [Stmt.script, Stmt.script]
    exact ok_eq_map_nested (by decide)
  | .returnNone, _ => by
    rw [Stmt.script, Stmt.script]
    exact ok_eq_map_nested (by decide)
  | .returnValue value, hwell => by
    obtain ⟨script, hvalue⟩ := value.exists_line hwell
    rw [Stmt.script, Stmt.script, hvalue.eq]
    apply ok_eq_map_nested
    simp [hvalue.newline_not_mem]
  | .ifThen cond yes, hwell => by
    rw [Stmt.isWellFormed, Bool.and_eq_true] at hwell
    obtain ⟨condScript, hcond⟩ := cond.exists_line hwell.1
    have hhead : '\n' ∉ ("if (" ++ condScript ++ ") ").toList := by
      simp [hcond.newline_not_mem]
    rw [Stmt.script, Stmt.script, hcond.eq, yes.script_succ depth hwell.2]
    cases yes.script depth with
    | error error => rfl
    | ok script =>
      apply congrArg Except.ok
      rw [bodyScript_succ, Text.nested_append_of_line hhead]
  | .ifElse cond yes no, hwell => by
    simp only [Stmt.isWellFormed, Bool.and_eq_true] at hwell
    obtain ⟨⟨⟨hcondWell, hyesWell⟩, -⟩, hnoWell⟩ := hwell
    obtain ⟨condScript, hcond⟩ := cond.exists_line hcondWell
    have hhead : '\n' ∉ ("if (" ++ condScript ++ ") ").toList := by
      simp [hcond.newline_not_mem]
    have helse : Text.nested " else " = " else " := by decide
    rw [Stmt.script, Stmt.script, hcond.eq, yes.script_succ depth hyesWell,
      no.script_succ depth hnoWell]
    cases yes.script depth with
    | error error => rfl
    | ok yesScript =>
      cases no.script depth with
      | error error => rfl
      | ok noScript =>
        apply congrArg Except.ok
        rw [bodyScript_succ, bodyScript_succ, Text.nested_append, Text.nested_append,
          Text.nested_append_of_line hhead, helse]
  | .block stmts, hwell => by
    rw [Stmt.script, Stmt.script, Stmt.scripts_succ (depth + 1) stmts hwell]
    cases Stmt.scripts (depth + 1) stmts with
    | error error => rfl
    | ok scripts => exact congrArg Except.ok (scriptBlock_succ depth scripts)

/-- Statements at a greater depth have the same scripts, nested. -/
theorem Stmt.scripts_succ (depth : Nat) : ∀ stmts : List Stmt, Stmt.allWellFormed stmts = true →
    Stmt.scripts (depth + 1) stmts = (Stmt.scripts depth stmts).map (List.map Text.nested)
  | [], _ => by
    rw [Stmt.scripts, Stmt.scripts]
    rfl
  | stmt :: stmts, hwell => by
    rw [Stmt.allWellFormed, Bool.and_eq_true] at hwell
    rw [Stmt.scripts, Stmt.scripts, stmt.script_succ depth hwell.1,
      Stmt.scripts_succ depth stmts hwell.2]
    cases stmt.script depth with
    | error error => rfl
    | ok script =>
      cases Stmt.scripts depth stmts with
      | error error => rfl
      | ok scripts => rfl

end

end ClassLang
