import ClassLang.Proofs.RoundTrip
import ClassLang.Script.Program

/-!
# Scripts read as sources

The scripts of statements are sources of the class language themselves.  Read
as such, they give the tree that they were made from, except where a script
says a thing differently: printing is a call of `console.log`, a declaration
has the word `let` for its type, and a declaration that is the whole body of a
loop or a branch stands in a block.
-/

namespace ClassLang

open Grammar

/-! ## The tree of a script -/

mutual

def Exp.scriptTree : Exp → Exp
  | .missing => .missing
  | .int value => .int value
  | .bool value => .bool value
  | .this => .this
  | .name text => .name text
  | .println value => .binary (.name "console") .member (.call (.name "log") [value.scriptTree])
  | .new className => .new className
  | .call callee args => .call callee.scriptTree (Exp.scriptTrees args)
  | .binary left op right => .binary left.scriptTree op right.scriptTree

def Exp.scriptTrees : List Exp → List Exp
  | [] => []
  | exp :: exps => exp.scriptTree :: Exp.scriptTrees exps

end

def VarDec.scriptTree (dec : VarDec) : VarDec :=
  ⟨.named "let", dec.name⟩

/-- The body of a loop or a branch: a declaration gets a block of its own. -/
def Stmt.asBody : Stmt → Stmt
  | .declare dec => .block [.declare dec]
  | stmt => stmt

mutual

def Stmt.scriptTree : Stmt → Stmt
  | .missing => .missing
  | .declare dec => .declare dec.scriptTree
  | .assign target value => .assign target.scriptTree value.scriptTree
  | .expression exp => .expression exp.scriptTree
  | .whileLoop cond body => .whileLoop cond.scriptTree body.scriptTree.asBody
  | .breakLoop => .breakLoop
  | .returnNone => .returnNone
  | .returnValue value => .returnValue value.scriptTree
  | .ifThen cond yes => .ifThen cond.scriptTree yes.scriptTree.asBody
  | .ifElse cond yes no =>
    .ifElse cond.scriptTree yes.scriptTree.asBody no.scriptTree.asBody
  | .block stmts => .block (Stmt.scriptTrees stmts)

def Stmt.scriptTrees : List Stmt → List Stmt
  | [] => []
  | stmt :: stmts => stmt.scriptTree :: Stmt.scriptTrees stmts

end

/-! ## Expressions -/

/-- The script exists and writes its tree, as a chain if a member can be
selected from it as it stands. -/
structure Exp.HasScript (exp : Exp) (script : String) : Prop where
  eq : exp.script = .ok script
  sum : Written IsSum script exp.scriptTree
  chain : exp.chains = true → Written IsChain script exp.scriptTree

theorem Exp.HasScript.of_chain {exp : Exp} {script : String} (heq : exp.script = .ok script)
    (hchain : Written IsChain script exp.scriptTree) : exp.HasScript script :=
  ⟨heq, hchain.sum, fun _ => hchain⟩

/-- With parentheses where they are needed, a member can be selected. -/
theorem Exp.HasScript.receiver {exp : Exp} {script : String} (hexp : exp.HasScript script) :
    Written IsChain (if exp.chains then script else parenthesized script) exp.scriptTree := by
  cases hchains : exp.chains with
  | true => exact hexp.chain hchains
  | false => exact (written_parenthesized hexp.sum).chain

theorem written_log {inner : String} {exp : Exp} (hinner : Written IsSum inner exp) :
    Written IsChain ("console.log(" ++ inner ++ ")")
      (.binary (.name "console") .member (.call (.name "log") [exp])) := by
  have hconsole : Written IsChain "console" (.name "console") :=
    (written_name (by decide)).chain
  have hcall := written_call hconsole (by decide : Lexeme.isName "log" = true) (.cons hinner .nil)
  have htext : "console" ++ "." ++ ("log" ++ "(" ++ Text.commaSeparated [inner] ++ ")") =
      "console.log(" ++ inner ++ ")" := by
    rw [Text.commaSeparated, String.intercalate_singleton]
    simp only [← String.append_assoc]
    rfl
  rwa [htext] at hcall

section Binary

variable {left right : Exp} {leftScript rightScript text : String}

/-- A member is selected from the script of its receiver. -/
theorem Exp.HasScript.member (hleft : left.HasScript leftScript)
    (hname : Lexeme.isName text = true) :
    ∃ script, (Exp.binary left .member (.name text)).HasScript script := by
  refine ⟨_, .of_chain ?_ (written_member hleft.receiver hname)⟩
  rw [Exp.script, hleft.eq]
  rfl

theorem Exp.HasScript.call {args : List Exp} {scripts : List String}
    (hleft : left.HasScript leftScript) (hname : Lexeme.isName text = true)
    (heq : Exp.scripts args = .ok scripts)
    (hargs : WrittenEach IsSum scripts (Exp.scriptTrees args)) :
    ∃ script, (Exp.binary left .member (.call (.name text) args)).HasScript script := by
  refine ⟨_, .of_chain ?_ (written_call hleft.receiver hname hargs)⟩
  rw [Exp.script, hleft.eq, Exp.script, heq]
  rfl

/-- Operands stand in parentheses where they need them. -/
theorem Exp.HasScript.arithmetic {op : Op} (hop : op ∈ Grammar.arithmetic)
    (hleft : left.HasScript leftScript) (hright : right.HasScript rightScript) :
    ∃ script, (Exp.binary left op right).HasScript script := by
  have hwritten := written_operator (written_parenthesized hleft.sum).chain hop
    (written_parenthesized hright.sum).chain
  refine ⟨_, ?_, hwritten, ?_⟩
  · rw [Exp.script, hleft.eq, hright.eq]
    cases op with
    | missing | member => exact absurd hop (by decide)
    | plus | minus | times | divide => rfl
  · intro hchains
    have hmember : op = .member := beq_iff_eq.mp hchains
    rw [hmember] at hop
    exact absurd hop (by decide)

end Binary

mutual

/-- The script of an expression is written as its script tree. -/
theorem Exp.exists_script : ∀ exp : Exp, exp.isWellFormed = true →
    ∃ script, exp.HasScript script
  | .missing, hwell => by cases hwell
  | .int value, hwell => by
    simp only [Exp.isWellFormed, Bool.and_eq_true, decide_eq_true_eq] at hwell
    exact ⟨_, .of_chain rfl (written_int hwell.1 hwell.2).chain⟩
  | .bool value, _ => ⟨_, .of_chain rfl (written_bool value).chain⟩
  | .this, _ => ⟨_, .of_chain rfl written_this.chain⟩
  | .name text, hwell => ⟨_, .of_chain rfl (written_name hwell).chain⟩
  | .println value, hwell => by
    obtain ⟨script, hvalue⟩ := value.exists_script hwell
    refine ⟨_, .of_chain ?_ (written_log hvalue.sum)⟩
    rw [Exp.script, hvalue.eq]
    rfl
  | .new className, hwell => ⟨_, .of_chain rfl (written_new hwell).chain⟩
  | .call _ _, hwell => by cases hwell
  | .binary left op right, hwell => by
    by_cases hmember : op = .member
    · subst hmember
      rw [Exp.isWellFormed_member, Bool.and_eq_true] at hwell
      obtain ⟨leftScript, hleft⟩ := left.exists_script hwell.1
      have hright := hwell.2
      cases right with
      | name text => exact hleft.member hright
      | call callee args =>
        cases callee with
        | name text =>
          rw [Exp.isMember, Bool.and_eq_true] at hright
          obtain ⟨scripts, heq, hargs⟩ := Exp.exists_scripts args hright.2
          exact hleft.call hright.1 heq hargs
        | _ => cases hright
      | _ => cases hright
    · have hop := Exp.mem_arithmetic_of_isWellFormed hmember hwell
      rw [Exp.isWellFormed_arithmetic hop, Bool.and_eq_true] at hwell
      obtain ⟨leftScript, hleft⟩ := left.exists_script hwell.1
      obtain ⟨rightScript, hright⟩ := right.exists_script hwell.2
      exact hleft.arithmetic hop hright

theorem Exp.exists_scripts : ∀ exps : List Exp, Exp.allWellFormed exps = true →
    ∃ scripts, Exp.scripts exps = .ok scripts ∧ WrittenEach IsSum scripts (Exp.scriptTrees exps)
  | [], _ => ⟨[], rfl, .nil⟩
  | exp :: exps, hwell => by
    rw [Exp.allWellFormed, Bool.and_eq_true] at hwell
    obtain ⟨script, hexp⟩ := exp.exists_script hwell.1
    obtain ⟨scripts, heq, hothers⟩ := Exp.exists_scripts exps hwell.2
    refine ⟨script :: scripts, ?_, .cons hexp.sum hothers⟩
    rw [Exp.scripts, hexp.eq, heq]
    rfl

end

/-! ## Statements -/

theorem Grammar.IsTarget.scriptTree {exp : Exp} (htarget : IsTarget exp) :
    IsTarget exp.scriptTree := by
  cases htarget with
  | name text => exact .name text
  | member receiver text => exact .member receiver.scriptTree text

theorem Stmt.endsOpen_asBody (stmt : Stmt) : stmt.asBody.endsOpen = stmt.endsOpen := by
  cases stmt <;> rfl

/-- A script leaves an `else` open exactly where the statement does. -/
theorem Stmt.endsOpen_scriptTree : ∀ stmt : Stmt, stmt.scriptTree.endsOpen = stmt.endsOpen
  | .whileLoop _ body => body.scriptTree.endsOpen_asBody.trans body.endsOpen_scriptTree
  | .ifElse _ _ no => no.scriptTree.endsOpen_asBody.trans no.endsOpen_scriptTree
  | .ifThen _ _ | .missing | .declare _ | .assign _ _ | .expression _ | .breakLoop | .returnNone
  | .returnValue _ | .block _ => rfl

theorem spells_indentation (depth : Nat) : SpellsClosed (Text.indentation depth) [] := by
  intro rest
  rw [Text.indentation, String.toList_ofList]
  induction depth with
  | zero => exact .done rest
  | succ depth ih =>
    rw [List.replicate_succ]
    exact .blank rfl ih

theorem Spells.scriptLine {text : String} {lexemes : List Lexeme} (htext : Spells text lexemes)
    (depth : Nat) : SpellsClosed (scriptLine depth text) lexemes := by
  rw [ClassLang.scriptLine, String.append_assoc]
  exact (spells_indentation depth).append htext.line

/-- The layout of a block does not matter to its reader. -/
theorem written_scriptBlock {scripts : List String} {stmts : List Stmt}
    (hstmts : WrittenEach IsStmt scripts stmts) (depth : Nat) :
    Written IsStmt (scriptBlock depth scripts) (.block stmts) := by
  cases hstmts with
  | nil => exact ⟨_, spells_emptyBraces.spells, .block rfl .nil rfl⟩
  | cons hstmt hmore =>
    obtain ⟨lexemes, hspells, hsequence⟩ := (WrittenEach.cons hstmt hmore).sequence
    have hopen : SpellsClosed "\x7b\n" [openBrace] := spells_openBrace.append spells_newline
    have hlines := hspells.join fun _ _ htext => htext.scriptLine (depth + 1)
    have hall := ((hopen.append hlines).append (spells_indentation depth)).append
      spells_closeBrace
    rw [List.append_nil] at hall
    exact ⟨_, hall.spells, .block rfl (isStmts_of_isSequence hsequence) rfl⟩

theorem VarDec.written_script {dec : VarDec} (hwell : dec.isWellFormed = true) :
    Written IsDeclaration dec.script dec.scriptTree := by
  rw [VarDec.isWellFormed, Bool.and_eq_true] at hwell
  obtain ⟨word, hspells, hkind, htext⟩ :=
    exists_spells_name (by decide : Lexeme.isName "let" = true)
  have htype : IsType word (.named "let") := htext ▸ .named hkind
  have hlet : "let" ++ " " = "let " := rfl
  have hdec := written_declaration (ClassLang.written_typedName hspells htype hwell.2)
  rwa [hlet] at hdec

structure Stmt.HasScript (depth : Nat) (stmt : Stmt) (script : String) : Prop where
  eq : stmt.script depth = .ok script
  written : Written IsStmt script stmt.scriptTree

theorem Stmt.HasScript.body {depth : Nat} {stmt : Stmt} {script : String}
    (hstmt : stmt.HasScript depth script) :
    Written IsStmt (bodyScript depth stmt script) stmt.scriptTree.asBody := by
  cases stmt with
  | declare dec => exact written_scriptBlock (.cons hstmt.written .nil) depth
  | _ => exact hstmt.written

mutual

/-- The script of a statement is written as its script tree, at any depth. -/
theorem Stmt.exists_script : ∀ (depth : Nat) (stmt : Stmt), stmt.isWellFormed = true →
    ∃ script, stmt.HasScript depth script
  | _, .missing, hwell => by cases hwell
  | _, .declare dec, hwell => ⟨_, rfl, written_declare (VarDec.written_script hwell)⟩
  | _, .assign target value, hwell => by
    simp only [Stmt.isWellFormed, Bool.and_eq_true, decide_eq_true_eq] at hwell
    obtain ⟨⟨hassigns, htargetWell⟩, hvalueWell⟩ := hwell
    obtain ⟨targetScript, htarget⟩ := target.exists_script htargetWell
    obtain ⟨valueScript, hvalue⟩ := value.exists_script hvalueWell
    refine ⟨_, ?_, written_assign htarget.sum hassigns.scriptTree hvalue.sum⟩
    rw [Stmt.script, htarget.eq, hvalue.eq]
    rfl
  | _, .expression exp, hwell => by
    obtain ⟨script, hexp⟩ := exp.exists_script hwell
    refine ⟨_, ?_, written_expression hexp.sum⟩
    rw [Stmt.script, hexp.eq]
    rfl
  | depth, .whileLoop cond body, hwell => by
    rw [Stmt.isWellFormed, Bool.and_eq_true] at hwell
    obtain ⟨condScript, hcond⟩ := cond.exists_script hwell.1
    obtain ⟨script, hbody⟩ := body.exists_script depth hwell.2
    refine ⟨_, ?_, written_whileLoop hcond.sum hbody.body⟩
    rw [Stmt.script, hcond.eq, hbody.eq]
    rfl
  | _, .breakLoop, _ => ⟨_, rfl, written_breakLoop⟩
  | _, .returnNone, _ => ⟨_, rfl, written_returnNone⟩
  | _, .returnValue value, hwell => by
    obtain ⟨script, hvalue⟩ := value.exists_script hwell
    refine ⟨_, ?_, written_returnValue hvalue.sum⟩
    rw [Stmt.script, hvalue.eq]
    rfl
  | depth, .ifThen cond yes, hwell => by
    rw [Stmt.isWellFormed, Bool.and_eq_true] at hwell
    obtain ⟨condScript, hcond⟩ := cond.exists_script hwell.1
    obtain ⟨script, hyes⟩ := yes.exists_script depth hwell.2
    refine ⟨_, ?_, written_ifThen hcond.sum hyes.body⟩
    rw [Stmt.script, hcond.eq, hyes.eq]
    rfl
  | depth, .ifElse cond yes no, hwell => by
    simp only [Stmt.isWellFormed, Bool.and_eq_true, Bool.not_eq_true'] at hwell
    obtain ⟨⟨⟨hcondWell, hyesWell⟩, hclosed⟩, hnoWell⟩ := hwell
    obtain ⟨condScript, hcond⟩ := cond.exists_script hcondWell
    obtain ⟨yesScript, hyes⟩ := yes.exists_script depth hyesWell
    obtain ⟨noScript, hno⟩ := no.exists_script depth hnoWell
    have hclosedBody : yes.scriptTree.asBody.endsOpen = false := by
      rw [Stmt.endsOpen_asBody, Stmt.endsOpen_scriptTree, hclosed]
    refine ⟨_, ?_, written_ifElse hcond.sum hyes.body hclosedBody hno.body⟩
    rw [Stmt.script, hcond.eq, hyes.eq, hno.eq]
    rfl
  | depth, .block stmts, hwell => by
    obtain ⟨scripts, heq, hstmts⟩ := Stmt.exists_scripts (depth + 1) stmts hwell
    refine ⟨_, ?_, written_scriptBlock hstmts depth⟩
    rw [Stmt.script, heq]
    rfl

theorem Stmt.exists_scripts : ∀ (depth : Nat) (stmts : List Stmt),
    Stmt.allWellFormed stmts = true →
    ∃ scripts, Stmt.scripts depth stmts = .ok scripts ∧
      WrittenEach IsStmt scripts (Stmt.scriptTrees stmts)
  | _, [], _ => ⟨[], rfl, .nil⟩
  | depth, stmt :: stmts, hwell => by
    rw [Stmt.allWellFormed, Bool.and_eq_true] at hwell
    obtain ⟨script, hstmt⟩ := stmt.exists_script depth hwell.1
    obtain ⟨scripts, heq, hothers⟩ := Stmt.exists_scripts depth stmts hwell.2
    refine ⟨script :: scripts, ?_, .cons hstmt.written hothers⟩
    rw [Stmt.scripts, hstmt.eq, heq]
    rfl

end

/-! ## Programs without classes -/

def Program.scriptTree (program : Program) : Program :=
  ⟨program.classes, Stmt.scriptTrees program.stmts⟩

/-- A program without classes has the same script for every target, written as its script
tree. -/
theorem Program.exists_script {program : Program} (hwell : program.isWellFormed = true)
    (hclasses : program.classes = []) (target : Target) :
    ∃ script, program.script target = .ok script ∧
      Written IsProgram script program.scriptTree := by
  obtain ⟨classes, stmts⟩ := program
  cases hclasses
  simp only [Program.isWellFormed, Bool.and_eq_true] at hwell
  obtain ⟨⟨-, hne⟩, hstmtsWell⟩ := hwell
  obtain ⟨scripts, heq, hstmts⟩ := Stmt.exists_scripts 0 stmts hstmtsWell
  obtain ⟨lexemes, hspells, hsequence⟩ := hstmts.sequence
  have hlines := hspells.join fun _ _ htext => htext.line
  refine ⟨String.join (scripts.map (· ++ "\n")), ?_, lexemes, hlines.spells, ?_⟩
  · rw [Program.script, heq]
    exact congrArg Except.ok String.empty_append
  · cases stmts with
    | nil => cases hne
    | cons stmt stmts =>
      cases hsequence with
      | cons hstmt hothers => exact .intro .nil hstmt (isStmts_of_isSequence hothers)

/-! ## Reading scripts -/

/-- Statements that are read are well-formed. -/
theorem Stmt.isWellFormed_of_statementAt {source file : String} {tokens : List Token}
    {place next : Nat} {stmt : Stmt} (htokens : tokenize source file = .ok tokens)
    (hread : Parser.statementAt tokens.toArray place = .ok (stmt, next)) :
    stmt.isWellFormed = true := by
  have hproper := allProper_drop_of_tokenize htokens place
  rw [Parser.statementAt_eq] at hread
  obtain ⟨rest, houtcome, -⟩ := Parser.readAt_eq_ok.mp hread
  obtain ⟨⟨used, hsplit, hstmt⟩, -⟩ := (Parser.statementsSound _ _ hproper).statement houtcome
  rw [hsplit] at hproper
  exact hstmt.isWellFormed (List.forall_mem_map.mpr hproper.append_left)

/-- A text of one statement is read as that statement, up to the end token. -/
theorem exists_statementAt_of_written {text : String} {stmt : Stmt}
    (hwritten : Written IsStmt text stmt) (file : String) :
    ∃ body stop, tokenize text file = .ok (body ++ [stop]) ∧ stop.kind = .eof ∧
      Parser.statementAt (body ++ [stop]).toArray 0 = .ok (stmt, body.length) := by
  obtain ⟨lexemes, hspells, hstmt⟩ := hwritten
  obtain ⟨tokens, htokens, body, stop, rfl, hstop, hbody⟩ := tokenize_of_scans hspells.scans file
  have hopen : stmt.endsOpen = true → Parser.peek [stop] ≠ .elseWord := by
    intro _ hpeek
    cases hstop.symm.trans hpeek
  refine ⟨body, stop, htokens, hstop, ?_⟩
  rw [Parser.statementAt_eq]
  refine Parser.readAt_eq_ok.mpr ⟨[stop], ?_, by simp⟩
  exact Parser.stmt_parses _ hstmt body [stop] hbody hopen

/-- The script of a statement that was read, at any depth, is itself read as one
statement that reaches to the end, and gives the tree of the script.  The script
of a program without classes is read as the program of these trees, whatever the
target. -/
theorem script_reads_as_scriptTree {source file : String} {tokens : List Token}
    (htokens : tokenize source file = .ok tokens) (other : String) :
    (∀ place stmt next, Parser.statementAt tokens.toArray place = .ok (stmt, next) →
      ∀ depth, ∃ script body stop, stmt.script depth = .ok script ∧
        tokenize script other = .ok (body ++ [stop]) ∧ stop.kind = .eof ∧
        Parser.statementAt (body ++ [stop]).toArray 0 =
          .ok (stmt.scriptTree, body.length)) ∧
      ∀ program, Program.ofTokens tokens = .ok program → program.classes = [] →
        ∀ target, ∃ script, program.script target = .ok script ∧
          Program.ofSource script other = .ok program.scriptTree := by
  constructor
  · intro place stmt next hread depth
    obtain ⟨script, hstmt⟩ :=
      stmt.exists_script depth (Stmt.isWellFormed_of_statementAt htokens hread)
    obtain ⟨body, stop, hscript⟩ := exists_statementAt_of_written hstmt.written other
    exact ⟨script, body, stop, hstmt.eq, hscript⟩
  · intro program hprogram hclasses target
    obtain ⟨script, heq, hwritten⟩ := Program.exists_script
      (Program.isWellFormed_of_ofTokens htokens hprogram) hclasses target
    obtain ⟨printed, hprinted, hread⟩ := exists_tokens_of_written hwritten other
    refine ⟨script, heq, ?_⟩
    rw [Program.ofSource, hprinted]
    exact hread

/-- The source `if (a) int x; else println((1 - 2));` has a declaration for a branch. -/
theorem script_reads_as_scriptTree_branch :
    ∃ tree, tree = Stmt.ifElse (.name "a") (.block [.declare ⟨.named "let", "x"⟩])
        (.expression (.binary (.name "console") .member
          (.call (.name "log") [.binary (.int 1) .minus (.int 2)]))) ∧
      (∃ body stop,
        tokenize "if (a) \x7b\n\t\tlet x;\n\t\x7d else console.log((1) - (2));" "script" =
          .ok (body ++ [stop]) ∧ stop.kind = .eof ∧
        Parser.statementAt (body ++ [stop]).toArray 0 = .ok (tree, body.length)) ∧
      Program.ofSource "if (a) \x7b\n\tlet x;\n\x7d else console.log((1) - (2));\n" "script" =
        .ok ⟨[], [tree]⟩ := by
  obtain ⟨lexemes, hspells, hstmt⟩ := Stmt.written_source (.ifElse (.name "a")
    (.declare ⟨.int, "x"⟩) (.expression (.println (.binary (.int 1) .minus (.int 2))))) rfl
  have hprogram := IsProgram.intro .nil hstmt .nil
  rw [List.append_nil] at hprogram
  obtain ⟨body, stop, htokens, -, hreadStmt⟩ :=
    exists_statementAt_of_written ⟨lexemes, hspells, hstmt⟩ "typed"
  obtain ⟨tokens, hsame, hreadProgram⟩ :=
    exists_tokens_of_written ⟨lexemes, hspells, hprogram⟩ "typed"
  cases htokens.symm.trans hsame
  have hscripts := script_reads_as_scriptTree htokens "script"
  refine ⟨_, rfl, ?_, ?_⟩
  · obtain ⟨script, scriptBody, scriptStop, hscript, hread⟩ := hscripts.1 0 _ _ hreadStmt 1
    have htext : "if (a) \x7b\n\t\tlet x;\n\t\x7d else console.log((1) - (2));" = script :=
      Except.ok.inj hscript
    rw [htext]
    exact ⟨scriptBody, scriptStop, hread⟩
  · obtain ⟨script, hscript, hread⟩ := hscripts.2 _ hreadProgram rfl .es5
    have htext : "if (a) \x7b\n\tlet x;\n\x7d else console.log((1) - (2));\n" = script :=
      Except.ok.inj hscript
    rw [htext]
    exact hread

end ClassLang
