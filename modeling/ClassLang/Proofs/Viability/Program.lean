import ClassLang.Proofs.Soundness.Program
import ClassLang.Proofs.Viability.Statement

/-!
# What can come next in a class or a program
-/

namespace ClassLang

open Grammar
open Lexeme (sample kind_sample)

namespace Grammar

theorem isParameters_sample : IsParameters [sample .openParen, sample .closeParen] [] :=
  .none (kind_sample _) (kind_sample _)

/-- What is left of a constructor behind its word. -/
def constructorKinds : List Kind :=
  [.openParen, .closeParen, .openBrace, .closeBrace]

theorem exists_isConstructor_sample (base : Option String) {word : Lexeme}
    (hword : word.kind = .initWord) :
    ∃ init, IsConstructor base (word :: constructorKinds.map sample) init :=
  ⟨_, .intro hword isParameters_sample (kind_sample _) .none (by simp) .nil (kind_sample _)⟩

end Grammar

namespace Parser

section Class

variable {stop : Span} {context : String} {tokens : List Token} {error : SourceError}

theorem blocked_parameterList
    (heq : Parsed.outcome (parameterList stop context tokens) = .error error) :
    Blocked stop (IsClosed .closeParen IsParameterList) tokens error := by
  induction hlength : tokens.length using Nat.strongRecOn generalizing tokens with
  | ind length ih =>
    rw [outcome_parameterList] at heq
    rcases bind_eq_error heq with hparam | ⟨⟨param, after⟩, hparam, hmark⟩
    · refine (blocked_typedName hparam).within [] rfl fun hparam => ?_
      exact .intro (.intro (.last hparam) (kind_sample _)) [.closeParen] (by simp)
    have hshort := Parsed.length_of_outcome hparam
    obtain ⟨used, rfl, hused⟩ := reads_typedName hparam
    rcases bind_eq_error hmark with hmark | ⟨⟨mark, afterMark⟩, hmark, hnext⟩
    · refine .of_expect hmark (by decide) (by decide) used rfl fun kind hkind => ?_
      simp only [List.mem_cons, List.not_mem_nil, or_false] at hkind
      rcases hkind with rfl | rfl
      · have hother : IsTypedName [sample .ident, sample .ident] _ :=
          .intro (.named (kind_sample _)) (kind_sample _)
        exact .intro (.intro (.cons hused (kind_sample _) (.last hother)) (kind_sample _))
          [.ident, .ident, .closeParen] (by simp)
      · exact .intro (.intro (.last hused) (kind_sample _)) [] (by simp)
    · obtain ⟨rfl, hkinds⟩ := eq_cons_of_outcome_expect hmark
      dsimp only at hnext
      split at hnext
      · cases hnext
      · next hne =>
        have hcomma : mark.toLexeme.kind = .comma := by
          simp only [List.mem_cons, List.not_mem_nil, or_false] at hkinds
          exact hkinds.resolve_right hne
        have hparams := eq_error_of_bind hnext fun _ => ⟨_, rfl⟩
        rw [List.length_cons] at hshort
        refine (ih afterMark.length (by omega) hparams rfl).within (used ++ [mark]) (by simp)
          fun hlist => ?_
        obtain ⟨hothers, hclosing⟩ := hlist
        exact .intro (.intro (.cons hused hcomma hothers) hclosing) [] (by simp)

theorem blocked_parameters (heq : Parsed.outcome (parameters stop context tokens) = .error error) :
    Blocked stop IsParameters tokens error := by
  rw [outcome_parameters] at heq
  rcases cases_of_expect heq with hopen | ⟨opening, after, rfl, hopening, hnext⟩
  · refine .of_expect_one hopen (by decide) [] rfl ?_
    exact .intro isParameters_sample [.closeParen] rfl
  · dsimp only at hnext
    split at hnext
    · cases hnext
    · refine (blocked_parameterList hnext).within [opening] rfl fun hlist => ?_
      obtain ⟨hparams, hclosing⟩ := hlist
      exact .intro (.some hopening hparams hclosing) [] (by simp)

section Sequence

variable {α : Type} {IsItem : List Lexeme → α → Prop} {begins : List Token → Prop}
  [DecidablePred begins] {read : List Token → Except SourceError (α × List Token)}
  {loop : List Token → Except SourceError (List α × List Token)}

/-- A loop over items is blocked where one of them is. -/
theorem blocked_sequence
    (hloop : ∀ tokens, loop tokens =
      if begins tokens then do
        let (first, after) ← read tokens
        let (others, rest) ← loop after
        .ok (first :: others, rest)
      else .ok ([], tokens))
    (hread : ∀ {tokens rest : List Token} {item : α}, AllProper tokens →
      read tokens = .ok (item, rest) →
      Reads IsItem tokens item rest ∧ rest.length < tokens.length)
    (hblocked : ∀ {tokens : List Token} {error : SourceError}, AllProper tokens →
      read tokens = .error error → Blocked stop IsItem tokens error)
    (hproper : AllProper tokens) (heq : loop tokens = .error error) :
    Blocked stop (IsSequence IsItem) tokens error := by
  induction hlength : tokens.length using Nat.strongRecOn generalizing tokens with
  | ind length ih =>
    rw [hloop] at heq
    split at heq
    · rcases bind_eq_error heq with hfirst | ⟨⟨first, after⟩, hfirst, hnext⟩
      · refine (hblocked hproper hfirst).within [] rfl fun hfirst => ?_
        exact .intro (.cons hfirst .nil) [] (by simp)
      obtain ⟨⟨used, rfl, hused⟩, hshort⟩ := hread hproper hfirst
      have hothers := eq_error_of_bind hnext fun _ => ⟨_, rfl⟩
      refine (ih after.length (hlength ▸ hshort) hproper.append_right hothers rfl).within used rfl
        fun hothers => ?_
      exact .intro (.cons hused hothers) [] (by simp)
    · cases heq

end Sequence

theorem blocked_fields (hproper : AllProper tokens)
    (heq : Continued.outcome (fields stop tokens) = .error error) :
    Blocked stop (IsSequence IsDeclaration) tokens error :=
  blocked_sequence (outcome_fields stop)
    (fun _ hread => ⟨reads_declaration hread, Parsed.length_of_outcome hread⟩)
    (fun _ => blocked_declaration) hproper heq

theorem blocked_extendsClause
    (heq : Continued.outcome (extendsClause stop tokens) = .error error) :
    Blocked stop IsExtends tokens error := by
  rw [outcome_extendsClause] at heq
  split at heq
  · next hpeek =>
    obtain ⟨word, after, rfl, hword⟩ := exists_cons_of_peek hpeek (by decide)
    refine .of_last heq (fun _ => ⟨_, rfl⟩) (by decide) [word] rfl ?_
    exact .intro (.some hword (kind_sample _)) [] rfl
  · cases heq

variable (hproper : AllProper tokens)

include hproper

/-- A call of the base class's constructor only stops where the class has a
base. -/
theorem blocked_superCall {className : String} {base : Option String}
    (heq : Continued.outcome (superCall stop className base tokens) = .error error) :
    Blocked stop (fun lexemes call => IsSuperCall lexemes call ∧ (call.isSome → base.isSome))
      tokens error := by
  rw [outcome_superCall] at heq
  split at heq
  · next hpeek =>
    cases base with
    | none =>
      intro kinds got place span herror
      cases heq
      cases herror
    | some name =>
      obtain ⟨word, after, rfl, hword⟩ := exists_cons_of_peek hpeek (by decide)
      rcases bind_eq_error heq with hargs | ⟨⟨args, _⟩, hargs, hsemicolon⟩
      · refine ((expressionsBlocked stop after hproper.tail).arguments hargs).within [word] rfl
          fun hargs => ?_
        exact .intro ⟨.some hword hargs (kind_sample _), fun _ => rfl⟩ [.semicolon] (by simp)
      obtain ⟨used, hafter, hused⟩ := (expressionsSound stop after hproper.tail).arguments hargs
      refine .of_last hsemicolon (fun _ => ⟨_, rfl⟩) (by decide) (word :: used)
        (congrArg (word :: ·) hafter) ?_
      exact .intro ⟨.some hword hused (kind_sample _), fun _ => rfl⟩ [] (by simp)
  · cases heq

/-- Where a constructor is blocked, each of the expected kinds goes on with one. -/
theorem blocked_constructor {className : String} {base : Option String}
    (heq : Parsed.outcome (constructor stop className base tokens) = .error error) :
    Blocked stop (IsConstructor base) tokens error := by
  rw [outcome_constructor] at heq
  rcases cases_of_expect heq with hinit | ⟨word, afterInit, rfl, hword, hfromParams⟩
  · refine .of_expect_one hinit (by decide) [] rfl ?_
    obtain ⟨init, hinit⟩ := exists_isConstructor_sample base (kind_sample .initWord)
    exact .intro hinit constructorKinds rfl
  rcases bind_eq_error hfromParams with hparams | ⟨⟨params, _⟩, hparams, hfromOpen⟩
  · refine (blocked_parameters hparams).within [word] rfl fun hparams => ?_
    exact .intro (.intro hword hparams (kind_sample _) .none (by simp) .nil (kind_sample _))
      [.openBrace, .closeBrace] (by simp)
  obtain ⟨head, rfl, hhead⟩ := reads_parameters hparams
  rcases cases_of_expect hfromOpen with hopen | ⟨opening, afterOpen, rfl, hopening, hfromCall⟩
  · refine .of_expect_one hopen (by decide) (word :: head) rfl ?_
    exact .intro (.intro hword hhead (kind_sample _) .none (by simp) .nil (kind_sample _))
      [.closeBrace] (by simp)
  have hproperOpen := hproper.tail.append_right.tail
  rcases bind_eq_error hfromCall with hcall | ⟨⟨call, afterCall⟩, hcall, hfromBody⟩
  · refine (blocked_superCall hproperOpen hcall).within (word :: head ++ [opening]) (by simp)
      fun hcall => ?_
    exact .intro (.intro hword hhead hopening hcall.1 hcall.2 .nil (kind_sample _))
      [.closeBrace] (by simp)
  obtain ⟨⟨start, rfl, hstart⟩, hbase⟩ := reads_superCall hproperOpen hcall
  have hbody := eq_error_of_bind hfromBody fun _ => ⟨_, rfl⟩
  refine ((statementsBlocked stop afterCall hproperOpen.append_right).statements hbody).within
    (word :: head ++ opening :: start) (by simp) fun hclosed => ?_
  obtain ⟨hinner, hclosing⟩ := hclosed
  exact .intro (.intro hword hhead hopening hstart hbase hinner hclosing) [] (by simp)

theorem blocked_method (heq : Parsed.outcome (Parser.method stop tokens) = .error error) :
    Blocked stop IsMethod tokens error := by
  rw [outcome_method] at heq
  rcases cases_of_expect heq with hword | ⟨word, afterWord, rfl, hword, hfromName⟩
  · refine .of_expect_one hword (by decide) [] rfl ?_
    exact .intro (.intro (kind_sample _) (kind_sample _) isParameters_sample
      (.named (kind_sample _)) (kind_sample _) .nil (kind_sample _))
      [.ident, .openParen, .closeParen, .ident, .openBrace, .closeBrace] rfl
  rcases cases_of_expect hfromName with hname | ⟨name, afterName, rfl, hname, hfromParams⟩
  · refine .of_expect_one hname (by decide) [word] rfl ?_
    exact .intro (.intro hword (kind_sample _) isParameters_sample (.named (kind_sample _))
      (kind_sample _) .nil (kind_sample _))
      [.openParen, .closeParen, .ident, .openBrace, .closeBrace] rfl
  rcases bind_eq_error hfromParams with hparams | ⟨⟨params, _⟩, hparams, hfromType⟩
  · refine (blocked_parameters hparams).within [word, name] rfl fun hparams => ?_
    exact .intro (.intro hword hname hparams (.named (kind_sample _)) (kind_sample _) .nil
      (kind_sample _)) [.ident, .openBrace, .closeBrace] (by simp)
  obtain ⟨head, rfl, hhead⟩ := reads_parameters hparams
  rcases bind_eq_error hfromType with htype | ⟨⟨returnType, afterType⟩, hreturn, hfromBody⟩
  · refine .of_type htype (word :: name :: head) rfl fun htype => ?_
    exact .intro (.intro hword hname hhead htype (kind_sample _) .nil (kind_sample _))
      [.openBrace, .closeBrace] (by simp)
  obtain ⟨type, rfl, htype⟩ := reads_type hreturn
  have hbody := eq_error_of_bind hfromBody fun _ => ⟨_, rfl⟩
  rw [outcome_block] at hbody
  rcases cases_of_expect hbody with hopen | ⟨opening, afterOpen, rfl, hopening, hstmts⟩
  · refine .of_expect_one hopen (by decide) (word :: name :: head ++ [type]) (by simp) ?_
    exact .intro (.intro hword hname hhead htype (kind_sample _) .nil (kind_sample _))
      [.closeBrace] (by simp)
  have hproperOpen := hproper.tail.tail.append_right.tail.tail
  refine ((statementsBlocked stop afterOpen hproperOpen).statements hstmts).within
    (word :: name :: head ++ [type, opening]) (by simp) fun hclosed => ?_
  obtain ⟨hinner, hclosing⟩ := hclosed
  exact .intro (.intro hword hname hhead htype hopening hinner hclosing) [] (by simp)

theorem blocked_methods (heq : Continued.outcome (Parser.methods stop tokens) = .error error) :
    Blocked stop (IsSequence IsMethod) tokens error :=
  blocked_sequence (outcome_methods stop)
    (fun hall hread => ⟨reads_method hall hread, Parsed.length_of_outcome hread⟩)
    blocked_method hproper heq

theorem blocked_classDef (heq : Parsed.outcome (Parser.classDef stop tokens) = .error error) :
    Blocked stop IsClass tokens error := by
  -- A constructor without parameters and statements goes wherever one is missing.
  have hinit := fun base => exists_isConstructor_sample base (kind_sample .initWord)
  rw [outcome_classDef] at heq
  rcases cases_of_expect heq with hword | ⟨word, afterWord, rfl, hword, hfromName⟩
  · refine .of_expect_one hword (by decide) [] rfl ?_
    obtain ⟨init, hinit⟩ := hinit none
    exact .intro (.intro (kind_sample _) (kind_sample _) .none (kind_sample _) .nil hinit .nil
      (kind_sample _)) ([.ident, .openBrace, .initWord] ++ constructorKinds ++ [.closeBrace]) rfl
  rcases cases_of_expect hfromName with hname | ⟨name, afterName, rfl, hname, hfromBase⟩
  · refine .of_expect_one hname (by decide) [word] rfl ?_
    obtain ⟨init, hinit⟩ := hinit none
    exact .intro (.intro hword (kind_sample _) .none (kind_sample _) .nil hinit .nil
      (kind_sample _)) ([.openBrace, .initWord] ++ constructorKinds ++ [.closeBrace]) rfl
  rcases bind_eq_error hfromBase with hbase | ⟨⟨base, _⟩, hbase, hfromOpen⟩
  · refine (blocked_extendsClause hbase).within [word, name] rfl fun {_ base} hextending => ?_
    obtain ⟨init, hinit⟩ := hinit base
    exact .intro (.intro hword hname hextending (kind_sample _) .nil hinit .nil (kind_sample _))
      ([.openBrace, .initWord] ++ constructorKinds ++ [.closeBrace]) (by simp)
  obtain ⟨init, hinit⟩ := hinit base
  obtain ⟨extending, rfl, hextending⟩ := reads_extendsClause hproper.tail.tail hbase
  rcases cases_of_expect hfromOpen with hopen | ⟨opening, afterOpen, rfl, hopening, hfromFields⟩
  · refine .of_expect_one hopen (by decide) (word :: name :: extending) rfl ?_
    exact .intro (.intro hword hname hextending (kind_sample _) .nil hinit .nil (kind_sample _))
      ([.initWord] ++ constructorKinds ++ [.closeBrace]) (by simp)
  have hproperFields := hproper.tail.tail.append_right.tail
  rcases bind_eq_error hfromFields with hfields | ⟨⟨fields, _⟩, hfields, hfromInit⟩
  · refine (blocked_fields hproperFields hfields).within (word :: name :: extending ++ [opening])
      (by simp) fun hdeclarations => ?_
    exact .intro (.intro hword hname hextending hopening hdeclarations hinit .nil (kind_sample _))
      ([.initWord] ++ constructorKinds ++ [.closeBrace]) (by simp)
  obtain ⟨declarations, rfl, hdeclarations⟩ := reads_fields hproperFields hfields
  have hproperInit := hproperFields.append_right
  rcases bind_eq_error hfromInit with hinit | ⟨⟨init, _⟩, hinit, hfromMethods⟩
  · refine (blocked_constructor hproperInit hinit).within
      (word :: name :: extending ++ opening :: declarations) (by simp) fun hinit => ?_
    exact .intro (.intro hword hname hextending hopening hdeclarations hinit .nil (kind_sample _))
      [.closeBrace] (by simp)
  obtain ⟨constructing, rfl, hconstructing⟩ := reads_constructor hproperInit hinit
  have hproperMethods := hproperInit.append_right
  rcases bind_eq_error hfromMethods with hmethods | ⟨⟨methods, _⟩, hmethods, hfromClose⟩
  · refine (blocked_methods hproperMethods hmethods).within
      (word :: name :: extending ++ opening :: declarations ++ constructing) (by simp)
      fun hmethods => ?_
    exact .intro (.intro hword hname hextending hopening hdeclarations hconstructing hmethods
      (kind_sample _)) [.closeBrace] (by simp)
  obtain ⟨defining, rfl, hdefining⟩ := reads_methods hproperMethods hmethods
  refine .of_last hfromClose (fun _ => ⟨_, rfl⟩) (by decide)
    (word :: name :: extending ++ opening :: declarations ++ constructing ++ defining)
    (by simp) ?_
  exact .intro (.intro hword hname hextending hopening hdeclarations hconstructing hdefining
    (kind_sample _)) [] (by simp)

theorem blocked_classes (heq : Continued.outcome (Parser.classes stop tokens) = .error error) :
    Blocked stop (IsSequence IsClass) tokens error :=
  blocked_sequence (outcome_classes stop)
    (fun hall hread => ⟨reads_classDef hall hread, Parsed.length_of_outcome hread⟩)
    blocked_classDef hproper heq

theorem blocked_finalStatements
    (heq : Continued.outcome (finalStatements stop tokens) = .error error) :
    Blocked stop IsStmts tokens error := by
  induction hlength : tokens.length using Nat.strongRecOn generalizing tokens with
  | ind length ih =>
    rw [outcome_finalStatements] at heq
    split at heq
    · cases heq
    · rcases bind_eq_error heq with hstmt | ⟨⟨stmt, after⟩, hstmt, hnext⟩
      · refine ((statementsBlocked stop tokens hproper).statement hstmt).within [] rfl
          fun hstmt => ?_
        exact .intro (.cons hstmt .nil) [] (by simp)
      have hshort := Parsed.length_of_outcome hstmt
      obtain ⟨⟨used, rfl, hused⟩, -⟩ := (statementsSound stop tokens hproper).statement hstmt
      have hstmts := eq_error_of_bind hnext fun _ => ⟨_, rfl⟩
      refine (ih after.length (hlength ▸ hshort) hproper.append_right hstmts rfl).within used rfl
        fun hothers => ?_
      exact .intro (.cons hused hothers) [] (by simp)

/-- Where a program is blocked, each of the expected kinds goes on with one. -/
theorem blocked_program (heq : Parsed.outcome (Parser.program stop tokens) = .error error) :
    Blocked stop IsProgram tokens error := by
  rw [outcome_program] at heq
  rcases bind_eq_error heq with hclasses | ⟨⟨classes, afterClasses⟩, hclasses, hnext⟩
  · refine (blocked_classes hproper hclasses).within [] rfl fun hdefining => ?_
    exact .intro (.intro hdefining isStmt_sample .nil) [.ident, .semicolon] (by simp)
  obtain ⟨defining, rfl, hdefining⟩ := reads_classes hproper hclasses
  have hproperStmt := hproper.append_right
  dsimp only at hnext
  split at hnext
  · intro kinds got context span herror
    cases hnext
    cases herror
  · rcases bind_eq_error hnext with hstmt | ⟨⟨stmt, after⟩, hstmt, hfromRest⟩
    · refine ((statementsBlocked stop afterClasses hproperStmt).statement hstmt).within defining
        rfl fun hstmt => ?_
      exact .intro (.intro hdefining hstmt .nil) [] (by simp)
    obtain ⟨⟨used, rfl, hused⟩, -⟩ :=
      (statementsSound stop afterClasses hproperStmt).statement hstmt
    have hstmts := eq_error_of_bind hfromRest fun _ => ⟨_, rfl⟩
    refine (blocked_finalStatements hproperStmt.append_right hstmts).within (defining ++ used)
      (by simp) fun hothers => ?_
    exact .intro (.intro hdefining hused hothers) [] (by simp)

end Class

end Parser

end ClassLang
