import ClassLang.Proofs.Concatenation
import ClassLang.Proofs.Nesting

/-!
# Layout of scripts

What scripts are made of, said without any trees: phrases, which start in the middle
of a line and have lines of their own only in braces, and whole lines.  The script of
every program is made so, whatever the target.
-/

namespace ClassLang

namespace Text

/-! ## Text within a line -/

/-- Whether a character has no part in the layout. -/
def isInlineChar (c : Char) : Bool :=
  !(['\t', '\n', '\x7b', '\x7d'].contains c)

/-- Every slash is followed by a space. -/
def slashesSpaced : List Char → Bool
  | [] => true
  | c :: chars => (c != '/' || chars.head? == some ' ') && slashesSpaced chars

/-- Two texts in which slashes stand alone can be put side by side. -/
theorem slashesSpaced_append {left right : List Char} (hleft : slashesSpaced left = true)
    (hright : slashesSpaced right = true) : slashesSpaced (left ++ right) = true := by
  induction left with
  | nil => exact hright
  | cons c chars ih =>
    rw [slashesSpaced, Bool.and_eq_true, Bool.or_eq_true, beq_iff_eq] at hleft
    rw [List.cons_append, slashesSpaced, ih hleft.2, Bool.and_true, Bool.or_eq_true, beq_iff_eq]
    apply hleft.1.imp_right
    intro hspace
    rw [List.head?_append, hspace]
    rfl

theorem slashesSpaced_of_not_mem {chars : List Char} (hslash : '/' ∉ chars) :
    slashesSpaced chars = true := by
  induction chars with
  | nil => rfl
  | cons c chars ih =>
    rw [List.mem_cons, not_or] at hslash
    have hc : (c != '/') = true := bne_iff_ne.mpr (Ne.symm hslash.1)
    rw [slashesSpaced, hc, ih hslash.2]
    rfl

/-- The text stands within a line, without braces, and no slash in it starts a
comment. -/
structure IsInline (text : String) : Prop where
  chars : Within isInlineChar text
  slashes : slashesSpaced text.toList = true

instance (text : String) : Decidable (IsInline text) :=
  decidable_of_iff (Within isInlineChar text ∧ slashesSpaced text.toList = true)
    ⟨fun h => ⟨h.1, h.2⟩, fun h => ⟨h.chars, h.slashes⟩⟩

namespace IsInline

variable {left right text : String}

theorem append (hleft : IsInline left) (hright : IsInline right) : IsInline (left ++ right) where
  chars := Within.append_iff.mpr ⟨hleft.chars, hright.chars⟩
  slashes := by
    rw [String.toList_append]
    exact slashesSpaced_append hleft.slashes hright.slashes

/-- The characters of names say nothing about layout. -/
theorem of_continuesName (htext : Within Lexeme.continuesName text) : IsInline text where
  chars := by
    apply htext.mono
    intro c hc
    have hlayout : ['\t', '\n', '\x7b', '\x7d'].all (fun d => !Lexeme.continuesName d) = true := by
      decide
    rw [isInlineChar, Bool.not_eq_true', List.contains_eq_mem, decide_eq_false_iff_not]
    intro hmem
    simpa [hc] using List.all_eq_true.mp hlayout c hmem
  slashes := slashesSpaced_of_not_mem (htext.not_mem (by decide))

end IsInline

/-- All pieces of expressions stay inside a line. -/
theorem isOfPieces_isInline : IsOfPieces IsInline where
  append := IsInline.append
  name hname := .of_continuesName (Lexeme.continuesName_of_isName hname)
  decimal hvalue := .of_continuesName (continuesName_decimal hvalue)
  piece hpiece := by
    have hpieces : ∀ text ∈ scriptPieces, IsInline text := by decide
    exact hpieces _ hpiece

/-! ## Phrases and lines -/

mutual

/-- A text that starts in a line of the given depth, behind the tabs of that line, and
ends in a line of the same depth. -/
inductive IsPhrase : Nat → String → Prop
  | inline {depth : Nat} {text : String} (htext : IsInline text) : IsPhrase depth text
  | append {depth : Nat} {left right : String} (hleft : IsPhrase depth left)
      (hright : IsPhrase depth right) : IsPhrase depth (left ++ right)
  | emptyBraces {depth : Nat} : IsPhrase depth "\x7b\x7d"
  | braces {depth : Nat} {inner : String} (hinner : IsLines (depth + 1) inner) :
      IsPhrase depth ("\x7b\n" ++ inner ++ indentation depth ++ "\x7d")

/-- Whole lines of the given depth. -/
inductive IsLines : Nat → String → Prop
  | none {depth : Nat} : IsLines depth ""
  | line {depth : Nat} {phrase : String} (hphrase : IsPhrase depth phrase) :
      IsLines depth (scriptLine depth phrase)
  | append {depth : Nat} {left right : String} (hleft : IsLines depth left)
      (hright : IsLines depth right) : IsLines depth (left ++ right)

end

theorem IsLines.of_toList_eq {depth : Nat} {left right : String} (hleft : IsLines depth left)
    (heq : left.toList = right.toList) : IsLines depth right :=
  String.toList_inj.mp heq ▸ hleft

theorem IsLines.join {depth : Nat} {texts : List String}
    (htexts : ∀ text ∈ texts, IsLines depth text) : IsLines depth (String.join texts) := by
  induction texts with
  | nil => exact .none
  | cons text texts ih =>
    rw [List.forall_mem_cons] at htexts
    rw [String.join_cons]
    exact htexts.1.append (ih htexts.2)

/-- Phrases on lines of their own are lines. -/
theorem IsLines.scriptLines {depth : Nat} {scripts : List String}
    (hscripts : ∀ script ∈ scripts, IsPhrase depth script) :
    IsLines depth (String.join (scripts.map (scriptLine depth))) := by
  apply IsLines.join
  rw [List.forall_mem_map]
  exact fun script hmem => .line (hscripts script hmem)

/-- A block is a phrase at the depth at which its lines are one deeper. -/
theorem isPhrase_scriptBlock {depth : Nat} {scripts : List String}
    (hscripts : ∀ script ∈ scripts, IsPhrase (depth + 1) script) :
    IsPhrase depth (scriptBlock depth scripts) := by
  unfold scriptBlock
  split
  · exact .emptyBraces
  · exact .braces (.scriptLines hscripts)

end Text

open Text

/-! ## Statements -/

theorem Text.IsInline.ended {text : String} (htext : IsInline text) : IsInline (text ++ ";") :=
  htext.append (by decide)

theorem VarDec.isInline_script {dec : VarDec} (hwell : dec.isWellFormed = true) :
    IsInline dec.script := by
  rw [VarDec.isWellFormed, Bool.and_eq_true] at hwell
  have hlet : IsInline "let " := by decide
  exact (hlet.append (isOfPieces_isInline.name hwell.2)).ended

/-- A body is put in braces unless it has them already. -/
theorem isPhrase_bodyScript {depth : Nat} {body : Stmt} {script : String}
    (hwell : body.isWellFormed = true) (heq : body.script depth = .ok script)
    (hscript : IsPhrase depth script) : IsPhrase depth (bodyScript depth body script) := by
  cases body with
  | declare dec =>
    rw [Stmt.script] at heq
    apply isPhrase_scriptBlock
    rw [List.forall_mem_singleton, ← Except.ok.inj heq]
    exact .inline (VarDec.isInline_script hwell)
  | _ => exact hscript

theorem isPhrase_head {depth : Nat} {word cond body : String} (hword : IsInline word)
    (hcond : IsInline cond) (hbody : IsPhrase depth body) :
    IsPhrase depth (word ++ cond ++ ") " ++ body) := by
  have hclose : IsInline ") " := by decide
  exact .append (.inline ((hword.append hcond).append hclose)) hbody

mutual

/-- The script of a statement is a phrase of its depth. -/
theorem Stmt.exists_phrase (depth : Nat) : ∀ stmt : Stmt, stmt.isWellFormed = true →
    ∃ script, stmt.script depth = .ok script ∧ IsPhrase depth script
  | .missing, hwell => by cases hwell
  | .declare dec, hwell => by
    rw [Stmt.script]
    exact ⟨_, rfl, .inline (VarDec.isInline_script hwell)⟩
  | .assign target value, hwell => by
    simp only [Stmt.isWellFormed, Bool.and_eq_true] at hwell
    obtain ⟨targetScript, htargetEq, htarget⟩ := isOfPieces_isInline.exists_script target hwell.1.2
    obtain ⟨valueScript, hvalueEq, hvalue⟩ := isOfPieces_isInline.exists_script value hwell.2
    have hsign : IsInline " = " := by decide
    rw [Stmt.script, htargetEq, hvalueEq]
    exact ⟨_, rfl, .inline ((htarget.append hsign).append hvalue).ended⟩
  | .expression exp, hwell => by
    obtain ⟨script, heq, hexp⟩ := isOfPieces_isInline.exists_script exp hwell
    rw [Stmt.script, heq]
    exact ⟨_, rfl, .inline hexp.ended⟩
  | .whileLoop cond body, hwell => by
    rw [Stmt.isWellFormed, Bool.and_eq_true] at hwell
    obtain ⟨condScript, hcondEq, hcond⟩ := isOfPieces_isInline.exists_script cond hwell.1
    obtain ⟨script, hbodyEq, hbody⟩ := body.exists_phrase depth hwell.2
    rw [Stmt.script, hcondEq, hbodyEq]
    exact ⟨_, rfl, isPhrase_head (by decide) hcond (isPhrase_bodyScript hwell.2 hbodyEq hbody)⟩
  | .breakLoop, _ => by
    rw [Stmt.script]
    exact ⟨_, rfl, .inline (by decide)⟩
  | .returnNone, _ => by
    rw [Stmt.script]
    exact ⟨_, rfl, .inline (by decide)⟩
  | .returnValue value, hwell => by
    obtain ⟨script, heq, hvalue⟩ := isOfPieces_isInline.exists_script value hwell
    have hreturn : IsInline "return " := by decide
    rw [Stmt.script, heq]
    exact ⟨_, rfl, .inline (hreturn.append hvalue).ended⟩
  | .ifThen cond yes, hwell => by
    rw [Stmt.isWellFormed, Bool.and_eq_true] at hwell
    obtain ⟨condScript, hcondEq, hcond⟩ := isOfPieces_isInline.exists_script cond hwell.1
    obtain ⟨script, hyesEq, hyes⟩ := yes.exists_phrase depth hwell.2
    rw [Stmt.script, hcondEq, hyesEq]
    exact ⟨_, rfl, isPhrase_head (by decide) hcond (isPhrase_bodyScript hwell.2 hyesEq hyes)⟩
  | .ifElse cond yes no, hwell => by
    simp only [Stmt.isWellFormed, Bool.and_eq_true] at hwell
    obtain ⟨⟨⟨hcondWell, hyesWell⟩, -⟩, hnoWell⟩ := hwell
    obtain ⟨condScript, hcondEq, hcond⟩ := isOfPieces_isInline.exists_script cond hcondWell
    obtain ⟨yesScript, hyesEq, hyes⟩ := yes.exists_phrase depth hyesWell
    obtain ⟨noScript, hnoEq, hno⟩ := no.exists_phrase depth hnoWell
    have helse : IsInline " else " := by decide
    rw [Stmt.script, hcondEq, hyesEq, hnoEq]
    refine ⟨_, rfl, .append (.append ?_ (.inline helse)) (isPhrase_bodyScript hnoWell hnoEq hno)⟩
    exact isPhrase_head (by decide) hcond (isPhrase_bodyScript hyesWell hyesEq hyes)
  | .block stmts, hwell => by
    obtain ⟨scripts, heq, hscripts⟩ := Stmt.exists_phrases (depth + 1) stmts hwell
    rw [Stmt.script, heq]
    exact ⟨_, rfl, isPhrase_scriptBlock hscripts⟩

/-- Statements are phrases at their depth. -/
theorem Stmt.exists_phrases (depth : Nat) : ∀ stmts : List Stmt, Stmt.allWellFormed stmts = true →
    ∃ scripts, Stmt.scripts depth stmts = .ok scripts ∧ ∀ script ∈ scripts, IsPhrase depth script
  | [], _ => by
    rw [Stmt.scripts]
    exact ⟨[], rfl, by simp⟩
  | stmt :: stmts, hwell => by
    rw [Stmt.allWellFormed, Bool.and_eq_true] at hwell
    obtain ⟨script, heq, hstmt⟩ := stmt.exists_phrase depth hwell.1
    obtain ⟨scripts, hothersEq, hothers⟩ := Stmt.exists_phrases depth stmts hwell.2
    rw [Stmt.scripts, heq, hothersEq]
    exact ⟨_, rfl, List.forall_mem_cons.mpr ⟨hstmt, hothers⟩⟩

end

/-! ## Classes and programs -/

theorem VarDec.isInline_names {params : List VarDec}
    (hwell : ∀ param ∈ params, param.isWellFormed = true) : IsInline (VarDec.names params) := by
  apply isOfPieces_isInline.commaSeparated
  rw [List.forall_mem_map]
  intro param hmem
  have hparam := hwell param hmem
  rw [VarDec.isWellFormed, Bool.and_eq_true] at hparam
  exact isOfPieces_isInline.name hparam.2

/-- A line that opens a brace, the lines in it, and the line that closes it. -/
theorem Text.isLines_braced {depth : Nat} {front inner : String} (hfront : IsInline front)
    (hinner : IsLines (depth + 1) inner) :
    IsLines depth (scriptLine depth
      (front ++ ("\x7b\n" ++ inner ++ indentation depth ++ "\x7d"))) :=
  .line (.append (.inline hfront) (.braces hinner))

theorem Constructor.exists_inline_superScripts {init : Constructor}
    (hwell : Exp.allWellFormed init.superArgs = true) :
    ∃ args, init.superScripts = .ok args ∧ ∀ arg ∈ args, IsInline arg := by
  unfold superScripts
  split
  · exact isOfPieces_isInline.exists_scripts init.superArgs hwell
  · exact ⟨[], rfl, by simp⟩

theorem Constructor.isLines_superCall {call : String} (hcall : IsInline call)
    (init : Constructor) (depth : Nat) :
    IsLines depth (if init.callsSuper then scriptLine depth call else "") := by
  split
  · exact .line (.inline hcall)
  · exact .none

namespace ClassDef

variable {classDef : ClassDef}

/-- The arguments for the base class and the lines of the constructor's body. -/
theorem exists_init_lines (hwell : classDef.isWellFormed = true) (depth : Nat) :
    ∃ args lines, classDef.init.superScripts = .ok args ∧ (∀ arg ∈ args, IsInline arg) ∧
      classDef.initLines depth = .ok lines ∧ IsLines depth lines := by
  simp only [isWellFormed, Constructor.isWellFormed, Bool.and_eq_true, List.all_eq_true] at hwell
  obtain ⟨⟨⟨-, hfields⟩, ⟨-, hargsWell⟩, hbody⟩, -⟩ := hwell
  obtain ⟨args, hargsEq, hargs⟩ := Constructor.exists_inline_superScripts hargsWell
  obtain ⟨scripts, heq, hscripts⟩ := Stmt.exists_phrases depth classDef.init.body hbody
  have hdeclared : ∀ script ∈ classDef.fields.map VarDec.script, IsPhrase depth script := by
    rw [List.forall_mem_map]
    exact fun field hmem => .inline (VarDec.isInline_script (hfields field hmem))
  refine ⟨args, _, hargsEq, hargs, ?_, .scriptLines (List.forall_mem_append.mpr
    ⟨hdeclared, hscripts⟩)⟩
  rw [initLines, heq]
  rfl

/-- The names in the lines of a class leave the layout alone. -/
structure HasInlineParts (classDef : ClassDef) : Prop where
  name : IsInline classDef.name
  base : IsInline (classDef.base.getD "")
  header : IsInline classDef.header
  params : IsInline (VarDec.names classDef.init.params)

theorem hasInlineParts (hwell : classDef.isWellFormed = true) : classDef.HasInlineParts := by
  simp only [isWellFormed, Constructor.isWellFormed, Bool.and_eq_true, List.all_eq_true] at hwell
  obtain ⟨⟨⟨⟨hname, hbase⟩, -⟩, ⟨⟨⟨hparams, -⟩, -⟩, -⟩, -⟩, -⟩ := hwell
  have hclass : IsInline "class " := by decide
  have hextends : IsInline " extends " := by decide
  have hnone : IsInline "" := by decide
  have hfront := hclass.append (isOfPieces_isInline.name hname)
  refine ⟨isOfPieces_isInline.name hname, ?_, ?_, VarDec.isInline_names hparams⟩
  · cases heq : classDef.base with
    | none => exact hnone
    | some base =>
      rw [heq] at hbase
      exact isOfPieces_isInline.name hbase
  · rw [header]
    cases heq : classDef.base with
    | none => exact hfront.append hnone
    | some base =>
      rw [heq] at hbase
      exact hfront.append (hextends.append (isOfPieces_isInline.name hbase))

/-- Methods that are put into lines with the scripts of their bodies. -/
theorem exists_lines_methods (hwell : classDef.isWellFormed = true) (depth : Nat)
    (render : Method → String → String)
    (hrender : ∀ method body, IsInline method.name → IsInline (VarDec.names method.params) →
      IsPhrase depth body → IsLines depth (render method body)) :
    ∃ lines, (classDef.methods.mapM fun method => do
        let body ← Stmt.scripts (depth + 1) method.body
        return render method (scriptBlock depth body)) =
          (.ok lines : Except ScriptError (List String)) ∧
      IsLines depth (String.join lines) := by
  have heach : ∀ method ∈ classDef.methods, ∃ line, (do
      let body ← Stmt.scripts (depth + 1) method.body
      return render method (scriptBlock depth body)) =
        (.ok line : Except ScriptError String) ∧ IsLines depth line := by
    intro method hmem
    simp only [isWellFormed, Bool.and_eq_true, List.all_eq_true] at hwell
    have hmethod := hwell.2 method hmem
    simp only [Method.isWellFormed, Bool.and_eq_true, List.all_eq_true] at hmethod
    obtain ⟨⟨⟨hname, -⟩, hparams⟩, hbody⟩ := hmethod
    obtain ⟨scripts, heq, hscripts⟩ := Stmt.exists_phrases (depth + 1) method.body hbody
    rw [heq]
    exact ⟨_, rfl, hrender method _ (isOfPieces_isInline.name hname)
      (VarDec.isInline_names hparams) (isPhrase_scriptBlock hscripts)⟩
  obtain ⟨lines, heq, hlines⟩ := exists_mapM_eq_ok_forall heach
  exact ⟨lines, heq, .join hlines⟩

theorem HasInlineParts.isLines_functionMethod (hparts : classDef.HasInlineParts) (method : Method)
    (body : String) (hname : IsInline method.name)
    (hparams : IsInline (VarDec.names method.params)) (hbody : IsPhrase 0 body) :
    IsLines 0 (classDef.name ++ ".prototype." ++ method.name ++ " = function("
      ++ VarDec.names method.params ++ ") " ++ body ++ ";\n") := by
  have hfront : IsInline (classDef.name ++ ".prototype." ++ method.name ++ " = function("
      ++ VarDec.names method.params ++ ") ") :=
    .append (.append (.append (.append (.append hparts.name (by decide)) hname) (by decide))
      hparams) (by decide)
  have hend : IsInline ";" := by decide
  have hline := IsLines.line (.append (.append (.inline hfront) hbody) (.inline hend))
  exact hline.of_toList_eq (by simp [scriptLine, indentation])

/-- The line that links a class to its base. -/
theorem HasInlineParts.isLines_link (hparts : classDef.HasInlineParts) :
    IsLines 0 (if classDef.base.isSome then
      "Object.setPrototypeOf(" ++ classDef.name ++ ".prototype, " ++ classDef.base.getD ""
        ++ ".prototype);\n" else "") := by
  have hlink : IsInline ("Object.setPrototypeOf(" ++ classDef.name ++ ".prototype, "
      ++ classDef.base.getD "" ++ ".prototype);") :=
    .append (.append (.append (.append (by decide) hparts.name) (by decide)) hparts.base)
      (by decide)
  split
  · exact (IsLines.line (.inline hlink)).of_toList_eq (by simp [scriptLine, indentation])
  · exact .none

/-- A class that is written as functions is made of lines. -/
theorem exists_lines_functionScript (hwell : classDef.isWellFormed = true) :
    ∃ script, classDef.functionScript = .ok script ∧ IsLines 0 script := by
  have hparts := hasInlineParts hwell
  obtain ⟨args, lines, hargsEq, hargs, hlinesEq, hlines⟩ := exists_init_lines hwell 1
  obtain ⟨methods, hmethodsEq, hmethods⟩ :=
    exists_lines_methods hwell 0 _ hparts.isLines_functionMethod
  have hlist : ∀ arg ∈ "this" :: args, IsInline arg :=
    List.forall_mem_cons.mpr ⟨by decide, hargs⟩
  have hcall : IsInline (classDef.base.getD "" ++ ".call(" ++ commaSeparated ("this" :: args)
      ++ ");") :=
    .append (.append (.append hparts.base (by decide)) (isOfPieces_isInline.commaSeparated hlist))
      (by decide)
  have hfront : IsInline ("function " ++ classDef.name ++ "(" ++ VarDec.names classDef.init.params
      ++ ") ") :=
    .append (.append (.append (.append (by decide) hparts.name) (by decide)) hparts.params)
      (by decide)
  have hfunction := isLines_braced hfront
    ((Constructor.isLines_superCall hcall classDef.init 1).append hlines)
  rw [functionScript, hargsEq, hlinesEq, hmethodsEq]
  refine ⟨_, rfl, ((hfunction.append hparts.isLines_link).append hmethods).of_toList_eq ?_⟩
  simp [scriptLine, indentation]

theorem isLines_declaredMethod (method : Method) (body : String) (hname : IsInline method.name)
    (hparams : IsInline (VarDec.names method.params)) (hbody : IsPhrase 1 body) :
    IsLines 1 (scriptLine 1
      (method.name ++ "(" ++ VarDec.names method.params ++ ") " ++ body)) := by
  have hfront : IsInline (method.name ++ "(" ++ VarDec.names method.params ++ ") ") :=
    .append (.append (.append hname (by decide)) hparams) (by decide)
  exact .line (.append (.inline hfront) hbody)

/-- So is one that is written as a declaration. -/
theorem exists_lines_declarationScript (hwell : classDef.isWellFormed = true) :
    ∃ script, classDef.declarationScript = .ok script ∧ IsLines 0 script := by
  have hparts := hasInlineParts hwell
  obtain ⟨args, lines, hargsEq, hargs, hlinesEq, hlines⟩ := exists_init_lines hwell 2
  obtain ⟨methods, hmethodsEq, hmethods⟩ :=
    exists_lines_methods hwell 1 _ isLines_declaredMethod
  have hcall : IsInline ("super(" ++ commaSeparated args ++ ");") :=
    .append (.append (by decide) (isOfPieces_isInline.commaSeparated hargs)) (by decide)
  have hfront : IsInline ("constructor(" ++ VarDec.names classDef.init.params ++ ") ") :=
    .append (.append (by decide) hparts.params) (by decide)
  have hconstructor := isLines_braced hfront
    ((Constructor.isLines_superCall hcall classDef.init 2).append hlines)
  have hheader : IsInline (classDef.header ++ " ") := .append hparts.header (by decide)
  rw [declarationScript, hargsEq, hlinesEq, hmethodsEq]
  refine ⟨_, rfl, (isLines_braced hheader (hconstructor.append hmethods)).of_toList_eq ?_⟩
  simp [scriptLine, indentation]

theorem exists_lines_script (hwell : classDef.isWellFormed = true) (target : Target) :
    ∃ script, classDef.script target = .ok script ∧ IsLines 0 script := by
  cases target with
  | es5 => exact exists_lines_functionScript hwell
  | es6 => exact exists_lines_declarationScript hwell

end ClassDef

/-- The script of a program is made of whole lines, whatever the target. -/
theorem Program.exists_lines_script {program : Program} (hwell : program.isWellFormed = true)
    (target : Target) : ∃ script, program.script target = .ok script ∧ IsLines 0 script := by
  simp only [Program.isWellFormed, Bool.and_eq_true, List.all_eq_true] at hwell
  obtain ⟨classes, hclassesEq, hclasses⟩ := exists_mapM_eq_ok_forall fun classDef hmem =>
    ClassDef.exists_lines_script (hwell.1.1 classDef hmem) target
  obtain ⟨scripts, hscriptsEq, hscripts⟩ := Stmt.exists_phrases 0 program.stmts hwell.2
  have hempty : IsLines 0 "\n" := .line (.inline (by decide : IsInline ""))
  have hseparated : ∀ text ∈ classes.map (· ++ "\n"), IsLines 0 text := by
    rw [List.forall_mem_map]
    exact fun script hmem => (hclasses script hmem).append hempty
  have hstatements : scripts.map (scriptLine 0) = scripts.map (· ++ "\n") := by
    simp [scriptLine, indentation]
  rw [Program.script, hclassesEq, hscriptsEq]
  refine ⟨_, rfl, (IsLines.join hseparated).append ?_⟩
  rw [← hstatements]
  exact .scriptLines hscripts

end ClassLang
