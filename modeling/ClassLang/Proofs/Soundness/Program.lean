import ClassLang.Proofs.Soundness.Statement

/-!
# The parser reads only classes and programs of the grammar
-/

namespace ClassLang

open Grammar

namespace Parser

/-! ## Classes -/

theorem reads_parameterList {stop : Span} {context : String} {tokens rest : List Token}
    {params : List VarDec}
    (heq : Parsed.outcome (parameterList stop context tokens) = .ok (params, rest)) :
    ∃ used closing, tokens = used ++ closing :: rest ∧ closing.toLexeme.kind = .closeParen ∧
      IsParameterList (used.map Token.toLexeme) params := by
  induction hlength : tokens.length using Nat.strongRecOn generalizing tokens params with
  | ind length ih =>
    rw [outcome_parameterList] at heq
    obtain ⟨⟨param, after⟩, hparam, hmark⟩ := bind_eq_ok heq
    have hshort := Parsed.length_of_outcome hparam
    obtain ⟨used, rfl, hused⟩ := reads_typedName hparam
    obtain ⟨⟨mark, afterMark⟩, hmark, hnext⟩ := bind_eq_ok hmark
    obtain ⟨rfl, hkinds⟩ := eq_cons_of_outcome_expect hmark
    dsimp only at hnext
    split at hnext
    · next hclosing =>
      cases hnext
      exact ⟨used, mark, rfl, hclosing, .last hused⟩
    · next hne =>
      have hcomma : mark.toLexeme.kind = .comma := by
        simp only [List.mem_cons, List.not_mem_nil, or_false] at hkinds
        exact hkinds.resolve_right hne
      obtain ⟨⟨params, _⟩, hparams, hlast⟩ := bind_eq_ok hnext
      cases hlast
      obtain ⟨others, closing, rfl, hclosing, hothers⟩ :=
        ih afterMark.length (by rw [List.length_cons] at hshort; omega) hparams rfl
      have hlist := IsParameterList.cons hused hcomma hothers
      exact ⟨used ++ mark :: others, closing, by simp, hclosing, by simpa using hlist⟩

theorem reads_parameters {stop : Span} {context : String} {tokens rest : List Token}
    {params : List VarDec}
    (heq : Parsed.outcome (parameters stop context tokens) = .ok (params, rest)) :
    Reads IsParameters tokens params rest := by
  rw [outcome_parameters] at heq
  obtain ⟨opening, after, rfl, hopening, hnext⟩ := exists_cons_of_expect heq
  dsimp only at hnext
  split at hnext
  · next hpeek =>
    obtain ⟨closing, after, rfl, hclosing⟩ := exists_cons_of_peek hpeek (by decide)
    cases hnext
    exact ⟨[opening, closing], rfl, .none hopening hclosing⟩
  · obtain ⟨used, closing, rfl, hclosing, hused⟩ := reads_parameterList hnext
    have hparams := IsParameters.some hopening hused hclosing
    exact ⟨opening :: used ++ [closing], by simp, by simpa using hparams⟩

section Sequence

variable {α : Type} {IsItem : List Lexeme → α → Prop} {begins : List Token → Prop}
  [DecidablePred begins] {read : List Token → Except SourceError (α × List Token)}
  {loop : List Token → Except SourceError (List α × List Token)}

/-- A loop that reads constructs of one sort for as long as the next one begins. -/
theorem reads_sequence
    (hloop : ∀ tokens, loop tokens =
      if begins tokens then do
        let (first, after) ← read tokens
        let (others, rest) ← loop after
        .ok (first :: others, rest)
      else .ok ([], tokens))
    (hread : ∀ {tokens rest : List Token} {item : α}, AllProper tokens →
      read tokens = .ok (item, rest) →
      Reads IsItem tokens item rest ∧ rest.length < tokens.length)
    {tokens rest : List Token} {items : List α} (hproper : AllProper tokens)
    (heq : loop tokens = .ok (items, rest)) : Reads (IsSequence IsItem) tokens items rest := by
  induction hlength : tokens.length using Nat.strongRecOn generalizing tokens items with
  | ind length ih =>
    rw [hloop] at heq
    split at heq
    · obtain ⟨⟨first, after⟩, hfirst, hnext⟩ := bind_eq_ok heq
      obtain ⟨⟨items, _⟩, hitems, hlast⟩ := bind_eq_ok hnext
      cases hlast
      obtain ⟨⟨used, rfl, hused⟩, hshort⟩ := hread hproper hfirst
      obtain ⟨others, rfl, hothers⟩ :=
        ih after.length (hlength ▸ hshort) hproper.append_right hitems rfl
      have hcons := IsSequence.cons hused hothers
      exact ⟨used ++ others, by simp, by simpa using hcons⟩
    · cases heq
      exact ⟨[], rfl, .nil⟩

end Sequence

section Class

variable {stop : Span} {tokens rest : List Token}

variable (hproper : AllProper tokens)

include hproper

/-- A call of the base is read only in a class that has one. -/
theorem reads_superCall {className : String} {base : Option String}
    {call : Option (List Exp)}
    (heq : Continued.outcome (superCall stop className base tokens) = .ok (call, rest)) :
    Reads IsSuperCall tokens call rest ∧ (call.isSome → base.isSome) := by
  rw [outcome_superCall] at heq
  by_cases hpeek : peek tokens = .superWord
  · rw [if_pos hpeek] at heq
    obtain ⟨word, after, rfl, hword⟩ := exists_cons_of_peek hpeek (by decide)
    cases base with
    | none => cases heq
    | some name =>
      obtain ⟨⟨args, _⟩, hargs, hsemicolon⟩ := bind_eq_ok heq
      obtain ⟨used, hafter, hused⟩ := (expressionsSound stop after hproper.tail).arguments hargs
      obtain ⟨semicolon, _, rfl, hkind, hlast⟩ := exists_cons_of_expect hsemicolon
      cases hlast
      subst hafter
      have hcall := IsSuperCall.some hword hused hkind
      exact ⟨⟨word :: used ++ [semicolon], by simp, by simpa using hcall⟩, fun _ => rfl⟩
  · rw [if_neg hpeek] at heq
    cases heq
    exact ⟨⟨[], rfl, .none⟩, fun hsome => by cases hsome⟩

/-- A constructor that is read is one by the grammar. -/
theorem reads_constructor {className : String} {base : Option String} {init : Constructor}
    (heq : Parsed.outcome (constructor stop className base tokens) = .ok (init, rest)) :
    Reads (IsConstructor base) tokens init rest := by
  rw [outcome_constructor] at heq
  obtain ⟨word, afterInit, rfl, hword, hfromParams⟩ := exists_cons_of_expect heq
  obtain ⟨⟨params, _⟩, hparams, hfromOpen⟩ := bind_eq_ok hfromParams
  obtain ⟨head, rfl, hhead⟩ := reads_parameters hparams
  obtain ⟨opening, afterOpen, rfl, hopening, hfromCall⟩ := exists_cons_of_expect hfromOpen
  obtain ⟨⟨call, afterCall⟩, hcall, hfromBody⟩ := bind_eq_ok hfromCall
  have hproperOpen := hproper.tail.append_right.tail
  obtain ⟨⟨start, rfl, hstart⟩, hbase⟩ := reads_superCall hproperOpen hcall
  obtain ⟨⟨body, _⟩, hbody, hlast⟩ := bind_eq_ok hfromBody
  obtain ⟨inner, closing, rfl, hclosing, hinner⟩ :=
    (statementsSound stop afterCall hproperOpen.append_right).statements hbody
  cases hlast
  have hinit := IsConstructor.intro hword hhead hopening hstart hbase hinner hclosing
  exact ⟨word :: head ++ opening :: start ++ inner ++ [closing], by simp, by simpa using hinit⟩

theorem reads_method {method : Method}
    (heq : Parsed.outcome (Parser.method stop tokens) = .ok (method, rest)) :
    Reads IsMethod tokens method rest := by
  rw [outcome_method] at heq
  obtain ⟨word, afterWord, rfl, hword, hfromName⟩ := exists_cons_of_expect heq
  obtain ⟨name, afterName, rfl, hname, hfromParams⟩ := exists_cons_of_expect hfromName
  obtain ⟨⟨params, _⟩, hparams, hfromType⟩ := bind_eq_ok hfromParams
  obtain ⟨head, rfl, hhead⟩ := reads_parameters hparams
  obtain ⟨⟨returnType, afterType⟩, hreturn, hfromBody⟩ := bind_eq_ok hfromType
  obtain ⟨type, rfl, htype⟩ := reads_type hreturn
  obtain ⟨⟨body, _⟩, hbody, hlast⟩ := bind_eq_ok hfromBody
  rw [outcome_block] at hbody
  obtain ⟨opening, afterOpen, rfl, hopening, hstmts⟩ := exists_cons_of_expect hbody
  obtain ⟨inner, closing, rfl, hclosing, hinner⟩ :=
    (statementsSound stop afterOpen hproper.tail.tail.append_right.tail.tail).statements hstmts
  cases hlast
  have hmethod := IsMethod.intro hword hname hhead htype hopening hinner hclosing
  rw [Token.text_toLexeme] at hmethod
  exact ⟨word :: name :: head ++ type :: opening :: inner ++ [closing], by simp,
    by simpa using hmethod⟩

theorem reads_extendsClause {base : Option String}
    (heq : Continued.outcome (extendsClause stop tokens) = .ok (base, rest)) :
    Reads IsExtends tokens base rest := by
  rw [outcome_extendsClause] at heq
  by_cases hpeek : peek tokens = .extendsWord
  · rw [if_pos hpeek] at heq
    obtain ⟨word, after, rfl, hword⟩ := exists_cons_of_peek hpeek (by decide)
    rw [List.tail_cons] at heq
    obtain ⟨name, after, rfl, hname, hlast⟩ := exists_cons_of_expect heq
    have hnonempty := hproper.tail.head_lexeme_isEmpty hname
    simp only [hnonempty, Bool.false_eq_true, if_false] at hlast
    cases hlast
    have hextends := IsExtends.some hword hname
    rw [Token.text_toLexeme] at hextends
    exact ⟨[word, name], rfl, hextends⟩
  · rw [if_neg hpeek] at heq
    cases heq
    exact ⟨[], rfl, .none⟩

theorem reads_fields {decs : List VarDec}
    (heq : Continued.outcome (fields stop tokens) = .ok (decs, rest)) :
    Reads (IsSequence IsDeclaration) tokens decs rest :=
  reads_sequence (outcome_fields stop)
    (fun _ hread => ⟨reads_declaration hread, Parsed.length_of_outcome hread⟩) hproper heq

theorem reads_methods {methods : List Method}
    (heq : Continued.outcome (Parser.methods stop tokens) = .ok (methods, rest)) :
    Reads (IsSequence IsMethod) tokens methods rest :=
  reads_sequence (outcome_methods stop)
    (fun hall hread => ⟨reads_method hall hread, Parsed.length_of_outcome hread⟩) hproper heq

/-- A class that is read is one by the grammar. -/
theorem reads_classDef {classDef : ClassDef}
    (heq : Parsed.outcome (Parser.classDef stop tokens) = .ok (classDef, rest)) :
    Reads IsClass tokens classDef rest := by
  rw [outcome_classDef] at heq
  obtain ⟨word, afterWord, rfl, hword, hfromName⟩ := exists_cons_of_expect heq
  obtain ⟨name, afterName, rfl, hname, hfromBase⟩ := exists_cons_of_expect hfromName
  obtain ⟨⟨base, _⟩, hbase, hfromOpen⟩ := bind_eq_ok hfromBase
  obtain ⟨extending, rfl, hextending⟩ := reads_extendsClause hproper.tail.tail hbase
  obtain ⟨opening, afterOpen, rfl, hopening, hfromFields⟩ := exists_cons_of_expect hfromOpen
  obtain ⟨⟨fields, _⟩, hfields, hfromInit⟩ := bind_eq_ok hfromFields
  have hproperFields := hproper.tail.tail.append_right.tail
  obtain ⟨declarations, rfl, hdeclarations⟩ := reads_fields hproperFields hfields
  have hproperInit := hproperFields.append_right
  obtain ⟨⟨init, _⟩, hinit, hfromMethods⟩ := bind_eq_ok hfromInit
  obtain ⟨constructing, rfl, hconstructing⟩ := reads_constructor hproperInit hinit
  obtain ⟨⟨methods, _⟩, hmethods, hfromClose⟩ := bind_eq_ok hfromMethods
  obtain ⟨defining, rfl, hdefining⟩ := reads_methods hproperInit.append_right hmethods
  obtain ⟨closing, _, rfl, hclosing, hlast⟩ := exists_cons_of_expect hfromClose
  cases hlast
  have hclass := IsClass.intro hword hname hextending hopening hdeclarations hconstructing
    hdefining hclosing
  rw [Token.text_toLexeme] at hclass
  exact ⟨word :: name :: extending ++ opening :: declarations ++ constructing ++ defining
    ++ [closing], by simp, by simpa using hclass⟩

theorem reads_classes {classes : List ClassDef}
    (heq : Continued.outcome (Parser.classes stop tokens) = .ok (classes, rest)) :
    Reads (IsSequence IsClass) tokens classes rest :=
  reads_sequence (outcome_classes stop)
    (fun hall hread => ⟨reads_classDef hall hread, Parsed.length_of_outcome hread⟩) hproper heq

/-! ## Programs -/

theorem reads_finalStatements {stmts : List Stmt}
    (heq : Continued.outcome (finalStatements stop tokens) = .ok (stmts, rest)) :
    Reads IsStmts tokens stmts rest ∧ peek rest = .eof := by
  induction hlength : tokens.length using Nat.strongRecOn generalizing tokens stmts with
  | ind length ih =>
    rw [outcome_finalStatements] at heq
    split at heq
    · next hend =>
      cases heq
      exact ⟨⟨[], rfl, .nil⟩, hend⟩
    · obtain ⟨⟨stmt, after⟩, hstmt, hnext⟩ := bind_eq_ok heq
      obtain ⟨⟨stmts, _⟩, hstmts, hlast⟩ := bind_eq_ok hnext
      cases hlast
      have hshort := Parsed.length_of_outcome hstmt
      obtain ⟨⟨used, rfl, hused⟩, -⟩ := (statementsSound stop tokens hproper).statement hstmt
      obtain ⟨⟨others, rfl, hothers⟩, hend⟩ :=
        ih after.length (hlength ▸ hshort) hproper.append_right hstmts rfl
      have hcons := IsStmts.cons hused hothers
      exact ⟨⟨used ++ others, by simp, by simpa using hcons⟩, hend⟩

/-- A program that is read is one by the grammar, and nothing is left after it. -/
theorem reads_program {program : Program}
    (heq : Parsed.outcome (Parser.program stop tokens) = .ok (program, rest)) :
    Reads IsProgram tokens program rest ∧ peek rest = .eof := by
  rw [outcome_program] at heq
  obtain ⟨⟨classes, afterClasses⟩, hclasses, hnext⟩ := bind_eq_ok heq
  obtain ⟨defining, rfl, hdefining⟩ := reads_classes hproper hclasses
  dsimp only at hnext
  split at hnext
  · cases hnext
  · obtain ⟨⟨stmt, after⟩, hstmt, hfromRest⟩ := bind_eq_ok hnext
    obtain ⟨⟨stmts, _⟩, hstmts, hlast⟩ := bind_eq_ok hfromRest
    cases hlast
    have hproperStmt := hproper.append_right
    obtain ⟨⟨used, rfl, hused⟩, -⟩ :=
      (statementsSound stop afterClasses hproperStmt).statement hstmt
    obtain ⟨⟨others, rfl, hothers⟩, hend⟩ :=
      reads_finalStatements hproperStmt.append_right hstmts
    have hprogram := IsProgram.intro hdefining hused hothers
    exact ⟨⟨defining ++ used ++ others, by simp, by simpa using hprogram⟩, hend⟩

end Class

end Parser

end ClassLang
