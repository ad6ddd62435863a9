import ClassLang.Proofs.Targets

/-!
# Calls of the base class

A class declaration with a base may only use `this` once the constructor of the base
class was called.  The declaration of a class calls it where the class does, at the
start of its own constructor, and nowhere else.  So it follows the rule exactly if the
class has such a call and uses `this` in none of the arguments.
-/

namespace ClassLang

open Grammar

/-! ## Uses of `this` -/

mutual

def Exp.usesThis : Exp → Bool
  | .this => true
  | .println value => value.usesThis
  | .call callee args => callee.usesThis || Exp.anyUsesThis args
  | .binary left _ right => left.usesThis || right.usesThis
  | .missing | .int _ | .bool _ | .name _ | .new _ => false

def Exp.anyUsesThis : List Exp → Bool
  | [] => false
  | exp :: exps => exp.usesThis || Exp.anyUsesThis exps

end

mutual

/-- The script of an expression uses `this` where the expression does. -/
theorem Exp.usesThis_scriptTree : ∀ exp : Exp, exp.scriptTree.usesThis = exp.usesThis
  | .missing | .int _ | .bool _ | .this | .name _ | .new _ => rfl
  | .println value => by
    simp [Exp.scriptTree, Exp.usesThis, Exp.anyUsesThis, value.usesThis_scriptTree]
  | .call callee args => by
    rw [Exp.scriptTree, Exp.usesThis, callee.usesThis_scriptTree,
      Exp.anyUsesThis_scriptTrees args, Exp.usesThis]
  | .binary left op right => by
    rw [Exp.scriptTree, Exp.usesThis, left.usesThis_scriptTree, right.usesThis_scriptTree,
      Exp.usesThis]

theorem Exp.anyUsesThis_scriptTrees : ∀ exps : List Exp,
    Exp.anyUsesThis (Exp.scriptTrees exps) = Exp.anyUsesThis exps
  | [] => rfl
  | exp :: exps => by
    rw [Exp.scriptTrees, Exp.anyUsesThis, exp.usesThis_scriptTree,
      Exp.anyUsesThis_scriptTrees exps, Exp.anyUsesThis]

end

/-! ## The words of expressions and statements -/

namespace Grammar

def Lacks (kind : Kind) (lexemes : List Lexeme) : Prop :=
  ∀ lexeme ∈ lexemes, lexeme.kind ≠ kind

section Lacks

variable {kind other : Kind} {lexemes others : List Lexeme} {lexeme : Lexeme}

theorem Lacks.nil : Lacks kind [] :=
  nofun

theorem Lacks.cons (hkind : lexeme.kind = other) (hne : other ≠ kind)
    (hmore : Lacks kind lexemes) : Lacks kind (lexeme :: lexemes) :=
  List.forall_mem_cons.mpr ⟨hkind ▸ hne, hmore⟩

theorem Lacks.append (hleft : Lacks kind lexemes) (hright : Lacks kind others) :
    Lacks kind (lexemes ++ others) :=
  List.forall_mem_append.mpr ⟨hleft, hright⟩

theorem Lacks.concat (hless : Lacks kind lexemes) (hkind : lexeme.kind = other)
    (hne : other ≠ kind) : Lacks kind (lexemes ++ [lexeme]) :=
  hless.append (.cons hkind hne .nil)

end Lacks

/-- The lexemes are within one statement and call no constructor of a base class, and the
word `this` is among them or not. -/
structure AreWithin (lexemes : List Lexeme) (this : Bool) : Prop where
  super : Lacks .superWord lexemes
  semicolon : Lacks .semicolon lexemes
  this_eq : lexemes.any (fun lexeme => lexeme.kind == .thisWord) = this

namespace AreWithin

variable {lexemes others : List Lexeme} {lexeme : Lexeme} {kind : Kind} {this other : Bool}

theorem nil : AreWithin [] false :=
  ⟨.nil, .nil, rfl⟩

theorem append (hleft : AreWithin lexemes this) (hright : AreWithin others other) :
    AreWithin (lexemes ++ others) (this || other) where
  super := hleft.super.append hright.super
  semicolon := hleft.semicolon.append hright.semicolon
  this_eq := by rw [List.any_append, hleft.this_eq, hright.this_eq]

/-- A lexeme in front that is none of the words and marks in question. -/
theorem cons (hkind : lexeme.kind = kind)
    (hother : kind ∉ [Kind.superWord, .semicolon, .thisWord]) (hmore : AreWithin lexemes this) :
    AreWithin (lexeme :: lexemes) this := by
  simp only [List.mem_cons, List.not_mem_nil, or_false, not_or] at hother
  refine ⟨hmore.super.cons hkind hother.1, hmore.semicolon.cons hkind hother.2.1, ?_⟩
  rw [List.any_cons, hkind, beq_false_of_ne hother.2.2, hmore.this_eq, Bool.false_or]

theorem concat (hless : AreWithin lexemes this) (hkind : lexeme.kind = kind)
    (hother : kind ∉ [Kind.superWord, .semicolon, .thisWord]) :
    AreWithin (lexemes ++ [lexeme]) this := by
  have hall := hless.append (cons hkind hother nil)
  rwa [Bool.or_false] at hall

end AreWithin

theorem not_mem_of_mem_operators {pair : Kind × Op}
    (hpair : pair ∈ sumOperators ++ productOperators) :
    pair.1 ∉ [Kind.superWord, .semicolon, .thisWord] := by
  have hall : ∀ pair ∈ sumOperators ++ productOperators,
      pair.1 ∉ [Kind.superWord, .semicolon, .thisWord] := by decide
  exact hall pair hpair

mutual

/-- An expression has no call of the base and no semicolon in it, and it has `this` only
where the tree says so. -/
theorem IsSum.areWithin : ∀ {lexemes : List Lexeme} {exp : Exp}, IsSum lexemes exp →
    AreWithin lexemes exp.usesThis
  | _, _, .product hexp => hexp.areWithin
  | _, _, .operator hleft hsign hright => by
    have hmark := not_mem_of_mem_operators (List.mem_append_left _ hsign)
    exact hleft.areWithin.append (.cons rfl hmark hright.areWithin)

theorem IsProduct.areWithin : ∀ {lexemes : List Lexeme} {exp : Exp}, IsProduct lexemes exp →
    AreWithin lexemes exp.usesThis
  | _, _, .chain hexp => hexp.areWithin
  | _, _, .operator hleft hsign hright => by
    have hmark := not_mem_of_mem_operators (List.mem_append_right _ hsign)
    exact hleft.areWithin.append (.cons rfl hmark hright.areWithin)

theorem IsChain.areWithin : ∀ {lexemes : List Lexeme} {exp : Exp}, IsChain lexemes exp →
    AreWithin lexemes exp.usesThis
  | _, _, .primary hexp => hexp.areWithin
  | _, _, .member hreceiver hperiod hname =>
    hreceiver.areWithin.append (.cons hperiod (by decide) (.cons hname (by decide) .nil))
  | _, _, .call hreceiver hperiod hname hargs =>
    hreceiver.areWithin.append (.cons hperiod (by decide)
      (.cons hname (by decide) hargs.areWithin))

theorem IsPrimary.areWithin : ∀ {lexemes : List Lexeme} {exp : Exp}, IsPrimary lexemes exp →
    AreWithin lexemes exp.usesThis
  | _, _, .int hdigits _ _ => .cons hdigits (by decide) .nil
  | _, _, .trueWord hword => .cons hword (by decide) .nil
  | _, _, .falseWord hword => .cons hword (by decide) .nil
  | _, _, .this hword =>
    ⟨.cons hword (by decide) .nil, .cons hword (by decide) .nil, by simp [hword, Exp.usesThis]⟩
  | _, _, .name hname => .cons hname (by decide) .nil
  | _, _, .new hword hname hopening hclosing =>
    .cons hword (by decide) (.cons hname (by decide)
      (.cons hopening (by decide) (.cons hclosing (by decide) .nil)))
  | _, _, .parenthesized hopening hinner hclosing =>
    (AreWithin.cons hopening (by decide) hinner.areWithin).concat hclosing (by decide)
  | _, _, .println hword hopening hinner hclosing =>
    (AreWithin.cons hword (by decide) (.cons hopening (by decide) hinner.areWithin)).concat
      hclosing (by decide)

theorem IsArguments.areWithin : ∀ {lexemes : List Lexeme} {exps : List Exp},
    IsArguments lexemes exps → AreWithin lexemes (Exp.anyUsesThis exps)
  | _, _, .none hopening hclosing => .cons hopening (by decide) (.cons hclosing (by decide) .nil)
  | _, _, .some hopening hinner hclosing =>
    (AreWithin.cons hopening (by decide) hinner.areWithin).concat hclosing (by decide)

theorem IsArgumentList.areWithin : ∀ {lexemes : List Lexeme} {exps : List Exp},
    IsArgumentList lexemes exps → AreWithin lexemes (Exp.anyUsesThis exps)
  | _, _, .last hexp => by
    rw [Exp.anyUsesThis, Exp.anyUsesThis, Bool.or_false]
    exact hexp.areWithin
  | _, _, .cons hexp hcomma hexps =>
    hexp.areWithin.append (.cons hcomma (by decide) hexps.areWithin)

end

theorem IsDeclaration.lacks_super {lexemes : List Lexeme} {dec : VarDec}
    (hdec : IsDeclaration lexemes dec) : Lacks .superWord lexemes := by
  obtain ⟨⟨htype, hname⟩, hsemicolon⟩ := hdec
  have htail : Lacks .superWord [_, _] :=
    .cons hname (by decide) (.cons hsemicolon (by decide) .nil)
  cases htype with
  | int hword | bool hword | void hword | named hword => exact .cons hword (by decide) htail

theorem IsHead.lacks_super {kind : Kind} {lexemes : List Lexeme} {cond : Exp}
    (hhead : IsHead kind lexemes cond) (hne : kind ≠ .superWord) : Lacks .superWord lexemes := by
  obtain ⟨hword, hopening, hcond, hclosing⟩ := hhead
  exact .concat (.cons hword hne (.cons hopening (by decide) hcond.areWithin.super))
    hclosing (by decide)

mutual

/-- No statement calls the base. -/
theorem IsStmt.lacks_super : ∀ {lexemes : List Lexeme} {stmt : Stmt}, IsStmt lexemes stmt →
    Lacks .superWord lexemes
  | _, _, .declare hdec => hdec.lacks_super
  | _, _, .expression hexp hsemicolon => hexp.areWithin.super.concat hsemicolon (by decide)
  | _, _, .assign hleft _ hsign hright hsemicolon =>
    (hleft.areWithin.super.append (.cons hsign (by decide) hright.areWithin.super)).concat
      hsemicolon (by decide)
  | _, _, .breakLoop hword hsemicolon =>
    .cons hword (by decide) (.cons hsemicolon (by decide) .nil)
  | _, _, .returnNone hword hsemicolon =>
    .cons hword (by decide) (.cons hsemicolon (by decide) .nil)
  | _, _, .returnValue hword hvalue hsemicolon =>
    .concat (.cons hword (by decide) hvalue.areWithin.super) hsemicolon (by decide)
  | _, _, .block hopening hstmts hclosing =>
    .concat (.cons hopening (by decide) hstmts.lacks_super) hclosing (by decide)
  | _, _, .whileLoop hhead hbody => (hhead.lacks_super (by decide)).append hbody.lacks_super
  | _, _, .ifThen hhead hyes => (hhead.lacks_super (by decide)).append hyes.lacks_super
  | _, _, .ifElse hhead hyes _ hword hno =>
    ((hhead.lacks_super (by decide)).append hyes.lacks_super).append
      (.cons hword (by decide) hno.lacks_super)

theorem IsStmts.lacks_super : ∀ {lexemes : List Lexeme} {stmts : List Stmt},
    IsStmts lexemes stmts → Lacks .superWord lexemes
  | _, _, .nil => .nil
  | _, _, .cons hstmt hstmts => hstmt.lacks_super.append hstmts.lacks_super

end

end Grammar

/-! ## The rule for constructors -/

/-- What a class with a base asks of its constructor: it starts with a call of the base
class's constructor, and `this` is not used before that call is over. -/
def callsBaseFirst (kinds : List Kind) : Bool :=
  kinds.head? == some .superWord && !(kinds.takeWhile (· != .semicolon)).contains .thisWord

/-- How a constructor that starts with a call of the base class's constructor, or without
one, calls it. -/
structure BaseCalls (kinds : List Kind) (call : Option (List Exp)) : Prop where
  first : kinds.head? = some .superWord ↔ call.isSome = true
  count : kinds.count .superWord = if call.isSome then 1 else 0
  early : callsBaseFirst kinds = call.any fun args => !Exp.anyUsesThis args

theorem Grammar.Lacks.not_mem_kinds {kind : Kind} {lexemes : List Lexeme}
    (hless : Lacks kind lexemes) : kind ∉ lexemes.map Lexeme.kind := by
  intro hmem
  obtain ⟨lexeme, hlexeme, heq⟩ := List.mem_map.mp hmem
  exact hless lexeme hlexeme heq

/-- The rule for a constructor that starts with a call is one about the arguments. -/
theorem callsBaseFirst_call {lexemes : List Lexeme} {this : Bool}
    (hwithin : AreWithin lexemes this) (rest : List Kind) :
    callsBaseFirst (.superWord :: (lexemes.map Lexeme.kind ++ .semicolon :: rest)) = !this := by
  -- There is no semicolon in the arguments, so the first one is where the call is over.
  have hcall : ∀ kind ∈ Kind.superWord :: lexemes.map Lexeme.kind,
      (kind != Kind.semicolon) = true := by
    rw [List.forall_mem_cons, List.forall_mem_map]
    exact ⟨rfl, fun lexeme hmem => bne_iff_ne.mpr (hwithin.semicolon lexeme hmem)⟩
  have htake : (Kind.superWord :: (lexemes.map Lexeme.kind ++ Kind.semicolon :: rest)).takeWhile
      (· != .semicolon) = .superWord :: lexemes.map Lexeme.kind := by
    rw [← List.cons_append, List.takeWhile_append_of_pos hcall,
      List.takeWhile_cons_of_neg (by decide), List.append_nil]
  have hthis : (Kind.superWord :: lexemes.map Lexeme.kind).contains .thisWord = this := by
    rw [← hwithin.this_eq, List.contains_cons, List.contains_eq_any_beq, List.any_map]
    simp only [Function.comp_def, BEq.comm]
    rfl
  rw [callsBaseFirst, htake, hthis]
  rfl

/-- A body calls the base at its start or not at all. -/
theorem baseCalls_of_isSuperCall {start inner : List Lexeme} {call : Option (List Exp)}
    (hcall : IsSuperCall start call) (hinner : Lacks .superWord inner) :
    BaseCalls ((start ++ inner).map Lexeme.kind ++ [.eof]) call := by
  have hrest : Kind.superWord ∉ inner.map Lexeme.kind ++ [.eof] := by
    simpa using hinner.not_mem_kinds
  cases hcall with
  | none =>
    have hfirst : (inner.map Lexeme.kind ++ [Kind.eof]).head? ≠ some .superWord :=
      fun heq => hrest (List.mem_of_mem_head? heq)
    refine ⟨iff_of_false hfirst nofun, List.count_eq_zero.mpr hrest, ?_⟩
    rw [callsBaseFirst, List.nil_append, beq_false_of_ne hfirst]
    rfl
  | @some word semicolon lexemes args hword hargs hsemicolon =>
    have hwithin := hargs.areWithin
    have hkinds : (word :: lexemes ++ [semicolon] ++ inner).map Lexeme.kind ++ [.eof] =
        .superWord :: (lexemes.map Lexeme.kind ++
          .semicolon :: (inner.map Lexeme.kind ++ [.eof])) := by
      simp [hword, hsemicolon]
    rw [hkinds]
    refine ⟨iff_of_true rfl rfl, ?_, ?_⟩
    · rw [List.count_cons_self, List.count_append, List.count_cons_of_ne (by decide),
        List.count_eq_zero.mpr hrest, List.count_eq_zero.mpr hwithin.super.not_mem_kinds]
      rfl
    · exact callsBaseFirst_call hwithin _

/-! ## The text of a constructor -/

/-- The arguments with which a constructor calls that of the base class, if it does. -/
def Constructor.baseArgs (init : Constructor) : Option (List Exp) :=
  if init.callsSuper then some init.superArgs else none

theorem BaseCalls.of_scriptTrees {kinds : List Kind} {call : Option (List Exp)}
    (hcalls : BaseCalls kinds (call.map Exp.scriptTrees)) : BaseCalls kinds call := by
  obtain ⟨hfirst, hcount, hearly⟩ := hcalls
  rw [Option.isSome_map] at hfirst hcount
  refine ⟨hfirst, hcount, ?_⟩
  rw [hearly, Option.any_map]
  simp only [Exp.anyUsesThis_scriptTrees]

/-- Fields are declared in front of the other statements. -/
theorem VarDec.writtenEach_scripts {fields : List VarDec} {scripts : List String}
    {stmts : List Stmt} (hwell : ∀ field ∈ fields, field.isWellFormed = true)
    (hstmts : WrittenEach IsStmt scripts stmts) :
    WrittenEach IsStmt (fields.map VarDec.script ++ scripts)
      (fields.map (fun field => Stmt.declare field.scriptTree) ++ stmts) := by
  induction fields with
  | nil => exact hstmts
  | cons field fields ih =>
    rw [List.forall_mem_cons] at hwell
    exact .cons (written_declare (VarDec.written_script hwell.1)) (ih hwell.2)

namespace ClassDef

variable {classDef : ClassDef} {args lines : List String} {bodies : List (Method × String)}

/-- The line that calls the base in a script spells a call with the same arguments. -/
theorem exists_spells_superLine (hwell : classDef.isWellFormed = true)
    (hparts : classDef.IsMadeOf args lines bodies) :
    ∃ lexemes, SpellsClosed (Text.unlines
        ((classDef.init.superLine ("super(" ++ Text.commaSeparated args ++ ");")).map
          ("\t\t" ++ ·))) lexemes ∧
      IsSuperCall lexemes (classDef.init.baseArgs.map Exp.scriptTrees) := by
  cases hcalls : classDef.init.callsSuper with
  | false =>
    refine ⟨[], ?_, ?_⟩
    · simp only [Constructor.superLine, hcalls]
      exact fun rest => .done rest
    · simp only [Constructor.baseArgs, hcalls]
      exact .none
  | true =>
    simp only [isWellFormed, Constructor.isWellFormed, Bool.and_eq_true] at hwell
    obtain ⟨⟨-, ⟨-, hargsWell⟩, -⟩, -⟩ := hwell
    obtain ⟨scripts, heq, hwritten⟩ := Exp.exists_scripts _ hargsWell
    have hsame := hparts.args_eq
    rw [Constructor.superScripts, if_pos hcalls, heq] at hsame
    cases hsame
    obtain ⟨lexemes, hspells, hcall⟩ := written_superCall hwritten
    refine ⟨lexemes, ?_, ?_⟩
    · have htext : Text.unlines
          ((classDef.init.superLine ("super(" ++ Text.commaSeparated args ++ ");")).map
            ("\t\t" ++ ·)) = scriptLine 2 ("super(" ++ Text.commaSeparated args ++ ");") := by
        rw [Constructor.superLine, if_pos hcalls, List.map_singleton, Text.unlines_cons,
          Text.unlines_nil, String.append_empty]
        rfl
      rw [htext]
      exact hspells.scriptLine 2
    · simp only [Constructor.baseArgs, hcalls]
      exact hcall

/-- The other lines of a constructor spell statements. -/
theorem exists_spells_initLines (hwell : classDef.isWellFormed = true)
    (hparts : classDef.IsMadeOf args lines bodies) :
    ∃ lexemes stmts, SpellsClosed (Text.unlines (lines.map ("\t\t" ++ ·))) lexemes ∧
      IsStmts lexemes stmts := by
  simp only [isWellFormed, Constructor.isWellFormed, Bool.and_eq_true, List.all_eq_true] at hwell
  obtain ⟨⟨⟨-, hfields⟩, -, hbody⟩, -⟩ := hwell
  obtain ⟨scripts, heq, hstmts⟩ := Stmt.exists_scripts 2 _ hbody
  have hsame := hparts.init_eq 2
  rw [initLines, heq] at hsame
  have htext : String.join ((classDef.fields.map VarDec.script ++ scripts).map (scriptLine 2)) =
      Text.unlines (lines.map ("\t\t" ++ ·)) := Except.ok.inj hsame
  obtain ⟨lexemes, hspells, hsequence⟩ := (VarDec.writtenEach_scripts hfields hstmts).sequence
  refine ⟨lexemes, _, ?_, isStmts_of_isSequence hsequence⟩
  rw [← htext]
  exact hspells.join fun _ _ hscript => hscript.scriptLine 2

/-- The class declaration calls the constructor of the base class as the class does. -/
structure ShowsBaseCall (classDef : ClassDef) (base script : String) : Prop where
  header : ∃ rest, script = "class " ++ classDef.name ++ " extends " ++ base ++ " \x7b\n" ++ rest
  line : classDef.init.callsSuper = true →
    ∃ args lines, Exp.scripts classDef.init.superArgs = .ok args ∧
      classDef.constructorLines script =
        ("\t\tsuper(" ++ Text.commaSeparated args ++ ");") :: lines
  calls : ∀ file, ∃ tokens,
    tokenize (Text.unlines (classDef.constructorLines script)) file = .ok tokens ∧
      BaseCalls (tokens.map Token.kind) classDef.init.baseArgs

/-- The script of a class with a base calls the base as the class does. -/
theorem exists_showsBaseCall (hwell : classDef.isWellFormed = true) {base : String}
    (hbase : classDef.base = some base) :
    ∃ script, classDef.script .es6 = .ok script ∧ classDef.ShowsBaseCall base script := by
  obtain ⟨args, lines, bodies, hparts⟩ := exists_isMadeOf hwell
  obtain ⟨script, hscript, hlines, htext⟩ := exists_declarationScript hwell hparts
  refine ⟨script, hscript, ?_, ?_, ?_⟩
  · have hheader : classDef.header = "class " ++ classDef.name ++ " extends " ++ base := by
      simp [header, hbase, String.append_assoc]
    have hsplit : ∀ (others : List String) (rest : String),
        Text.unlines ((classDef.header ++ " \x7b") :: others) ++ rest =
          "class " ++ classDef.name ++ " extends " ++ base ++ (" \x7b" ++ "\n")
            ++ (Text.unlines others ++ rest) := by
      intro others rest
      rw [Text.unlines_cons, hheader]
      simp only [String.append_assoc]
    exact ⟨_, htext.trans (hsplit _ _)⟩
  · intro hcalls
    have hargs := hparts.args_eq
    rw [Constructor.superScripts, if_pos hcalls] at hargs
    refine ⟨args, lines.map ("\t\t" ++ ·), hargs, ?_⟩
    have hline : "\t\tsuper(" ++ Text.commaSeparated args ++ ");" =
        "\t\t" ++ ("super(" ++ Text.commaSeparated args ++ ");") := by
      rw [← String.append_assoc, ← String.append_assoc]
      rfl
    rw [hlines, Constructor.superLine, if_pos hcalls, hline]
    rfl
  · intro file
    obtain ⟨start, hstart, hcall⟩ := exists_spells_superLine hwell hparts
    obtain ⟨inner, stmts, hinner, hstmts⟩ := exists_spells_initLines hwell hparts
    have hspells := hstart.append hinner
    rw [← Text.unlines_append, ← List.map_append, ← hlines] at hspells
    obtain ⟨tokens, htokens, body, stop, rfl, hstop, hbody⟩ :=
      tokenize_of_scans hspells.spells.scans file
    refine ⟨_, htokens, .of_scriptTrees ?_⟩
    have hkinds : (body ++ [stop]).map Token.kind =
        (start ++ inner).map Lexeme.kind ++ [.eof] := by
      rw [← hbody, List.map_append, List.map_map, List.map_singleton, hstop]
      rfl
    rw [hkinds]
    exact baseCalls_of_isSuperCall hcall hstmts.lacks_super

end ClassDef

/-- The script of a class is part of the script of its program. -/
theorem Program.exists_script_of_mem {program : Program} (hwell : program.isWellFormed = true)
    {target : Target} {classDef : ClassDef} (hmem : classDef ∈ program.classes) {script : String}
    (hscript : classDef.script target = .ok script) :
    ∃ before after, program.script target = .ok (before ++ script ++ after) := by
  obtain ⟨classes, stmts⟩ := program
  simp only [Program.isWellFormed, Bool.and_eq_true, List.all_eq_true] at hwell
  obtain ⟨⟨hclasses, -⟩, hstmtsWell⟩ := hwell
  obtain ⟨first, last, rfl⟩ := List.append_of_mem hmem
  rw [List.forall_mem_append, List.forall_mem_cons] at hclasses
  obtain ⟨lefts, hlefts⟩ := exists_mapM_eq_ok fun other hother =>
    ClassDef.exists_script (hclasses.1 other hother) target
  obtain ⟨rights, hrights⟩ := exists_mapM_eq_ok fun other hother =>
    ClassDef.exists_script (hclasses.2.2 other hother) target
  obtain ⟨stmtScripts, hstmts⟩ := Stmt.exists_scripts_eq_ok hstmtsWell 0
  refine ⟨String.join (lefts.map (· ++ "\n")), "\n" ++ String.join (rights.map (· ++ "\n"))
    ++ String.join (stmtScripts.map (· ++ "\n")), ?_⟩
  rw [Program.script, List.mapM_append, List.mapM_cons, hlefts, hscript, hrights, hstmts]
  refine congrArg Except.ok ?_
  simp [← String.toList_inj]

/-- The declaration of a class with a base calls the constructor of the base class once, in
its first statement, if the class does, and otherwise not at all.  The call is over before
`this` is used exactly if the class has one and uses `this` in no argument. -/
theorem base_called_as_in_class {source file : String} {tokens : List Token} {program : Program}
    (htokens : tokenize source file = .ok tokens) (hprogram : Program.ofTokens tokens = .ok program)
    {classDef : ClassDef} (hclass : classDef ∈ program.classes) {base : String}
    (hbase : classDef.base = some base) :
    ∃ before script after, program.script .es6 = .ok (before ++ script ++ after) ∧
      classDef.script .es6 = .ok script ∧ classDef.ShowsBaseCall base script := by
  have hwell := Program.isWellFormed_of_ofTokens htokens hprogram
  obtain ⟨script, hscript, hshows⟩ :=
    ClassDef.exists_showsBaseCall (ClassDef.isWellFormed_of_mem hwell hclass) hbase
  obtain ⟨before, after, hwhole⟩ := Program.exists_script_of_mem hwell hclass hscript
  exact ⟨before, script, after, hwhole, hscript, hshows⟩

/-- One class calls the constructor of its base class, with an argument; the other does not. -/
def Program.catAndDog : Program where
  classes := [
    ⟨"Cat", some "Animal", [⟨.int, "n"⟩], ⟨[⟨.int, "a"⟩], true, [.name "a"],
      [.assign (.binary .this .member (.name "n")) (.name "a")]⟩, []⟩,
    ⟨"Dog", some "Animal", [], ⟨[], false, [], []⟩, []⟩]
  stmts := [.breakLoop]

theorem base_called_as_in_class_catAndDog :
    ∃ cat dog tokens,
      tokenize Program.catAndDog.source "" = .ok tokens ∧
      Program.ofTokens tokens = .ok Program.catAndDog ∧ Program.catAndDog.classes = [cat, dog] ∧
      cat.ShowsBaseCall "Animal" ("class Cat extends Animal \x7b\n\tconstructor(a) \x7b\n" ++
        "\t\tsuper(a);\n\t\tlet n;\n\t\tthis.n = a;\n\t\x7d\n\x7d\n") ∧
      dog.ShowsBaseCall "Animal"
        "class Dog extends Animal \x7b\n\tconstructor() \x7b\n\t\x7d\n\x7d\n" ∧
      cat.init.baseArgs = some [.name "a"] ∧ dog.init.baseArgs = none := by
  obtain ⟨tokens, htokens, hread⟩ := exists_tokens_of_written
    (Program.written_source (by decide : Program.catAndDog.isWellFormed = true)) ""
  obtain ⟨-, cat, -, -, hcat, hshowsCat⟩ := base_called_as_in_class htokens hread
    List.mem_cons_self (show _ = some "Animal" from rfl)
  obtain ⟨-, dog, -, -, hdog, hshowsDog⟩ := base_called_as_in_class htokens hread
    (List.mem_cons_of_mem _ List.mem_cons_self) (show _ = some "Animal" from rfl)
  cases hcat
  cases hdog
  exact ⟨_, _, tokens, htokens, hread, rfl, hshowsCat, hshowsDog, rfl, rfl⟩

/-- A class with a base and no call of its constructor becomes a declaration with no call. -/
theorem derived_constructor_without_call :
    ∃ tokens program classDef script,
      tokenize "class Dog extends Animal \x7b init() \x7b \x7d \x7d\nx;" "" = .ok tokens ∧
      Program.ofTokens tokens = .ok program ∧ classDef ∈ program.classes ∧
      classDef.base = some "Animal" ∧ classDef.script .es6 = .ok script ∧
      script = "class Dog extends Animal \x7b\n\tconstructor() \x7b\n\t\x7d\n\x7d\n" ∧
      classDef.constructorLines script = [] := by
  obtain ⟨tokens, htokens, hread⟩ := exists_tokens_of_written
    (Program.written_source (by decide : Program.isWellFormed
      ⟨[⟨"Dog", some "Animal", [], ⟨[], false, [], []⟩, []⟩], [.expression (.name "x")]⟩ = true)) ""
  exact ⟨tokens, _, _, _, htokens, hread, List.mem_cons_self, rfl, rfl, rfl, by decide⟩

end ClassLang
