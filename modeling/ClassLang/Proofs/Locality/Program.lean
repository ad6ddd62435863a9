import ClassLang.Proofs.Locality.Statement

/-!
# What the parsers of classes and programs look at

The fields of a class end where no declaration starts, which takes two tokens
to see.  A constructor follows them, so the whole class is as local as the other
constructs.
-/

namespace ClassLang.Parser

section Class

variable {stop : Span} {tokens : List Token}

theorem local_parameterList (context : String) :
    LocalAt SamePeek (fun stop tokens => Parsed.outcome (parameterList stop context tokens))
      stop tokens := by
  induction hlength : tokens.length using Nat.strongRecOn generalizing tokens with
  | ind length ih =>
    refine .of_eq (outcome_parameterList · context ·) ?_
    refine .bind id (local_typedName context) fun param after hparam => ?_
    have hshort := Parsed.length_of_outcome hparam
    refine .expect (by decide) ?_ ?_
    · intro token first other rest _ _ hfirst
      dsimp only
      rw [hfirst.kind]
    · rintro mark afterMark rfl -
      by_cases hclosing : mark.kind = .closeParen
      · exact .of_eq (fun _ _ => if_pos hclosing) (.pure [param])
      · apply LocalAt.of_eq fun _ _ => if_neg hclosing
        rw [List.length_cons] at hshort
        exact .bind id (ih afterMark.length (by omega) rfl) fun _ _ _ => .pure _

theorem local_parameters (context : String) :
    LocalAt SamePeek (fun stop tokens => Parsed.outcome (parameters stop context tokens))
      stop tokens := by
  refine .of_eq (outcome_parameters · context ·) ?_
  refine .expect (by decide) (fun _ _ _ _ _ => rfl) fun opening after _ _ => ?_
  by_cases hclosing : peek after = .closeParen
  · apply LocalAt.of_peek id fun _ _ hsame => if_pos (hsame.trans hclosing)
    exact .tail (by rw [hclosing]; decide) (.pure [])
  · apply LocalAt.of_peek id fun _ _ hsame => if_neg (hsame ▸ hclosing)
    exact local_parameterList context

theorem local_superCall (className : String) (base : Option String) :
    LocalAt SamePeek (fun stop tokens => Continued.outcome (superCall stop className base tokens))
      stop tokens := by
  refine .of_eq (outcome_superCall · className base ·) ?_
  by_cases hpeek : peek tokens = .superWord
  · apply LocalAt.of_peek id fun _ _ hsame => if_pos (hsame.trans hpeek)
    cases base with
    | none => exact .fail rfl rfl (fun _ _ _ => rfl) rfl
    | some name =>
      refine .tail (by rw [hpeek]; decide) (.bind id ((expressionsLocal _ _).arguments _) ?_)
      intro args afterArgs _
      exact .expect (by decide) (fun _ _ _ _ _ => rfl) fun _ _ _ _ => .pure _
  · apply LocalAt.of_peek id fun _ _ hsame => if_neg (hsame ▸ hpeek)
    exact .pure _

theorem local_constructor (className : String) (base : Option String) :
    LocalAt SamePeek (fun stop tokens => Parsed.outcome (constructor stop className base tokens))
      stop tokens := by
  refine .of_eq (outcome_constructor · className base ·) ?_
  refine .expect (by decide) (fun _ _ _ _ _ => rfl) fun word afterInit _ _ => ?_
  refine .bind id (local_parameters _) fun params afterParams _ => ?_
  refine .expect (by decide) (fun _ _ _ _ _ => rfl) fun opening afterOpen _ _ => ?_
  refine .bind id (local_superCall className base) fun call afterCall _ => ?_
  exact .bind id ((statementsLocal _ _).statements _) fun _ _ _ => .pure _

theorem local_block :
    LocalAt SamePeek (fun stop tokens => Parsed.outcome (block stop tokens)) stop tokens := by
  refine .of_eq outcome_block ?_
  refine .expect (by decide) (fun _ _ _ _ _ => rfl) fun opening after _ _ => ?_
  exact (statementsLocal _ _).statements _

theorem local_method :
    LocalAt SamePeek (fun stop tokens => Parsed.outcome (method stop tokens)) stop tokens := by
  refine .of_eq outcome_method ?_
  refine .expect (by decide) (fun _ _ _ _ _ => rfl) fun word afterWord _ _ => ?_
  refine .expect_name ?_ fun name afterName _ => ?_
  · intro token first other rest hlexeme
    simp only [hlexeme]
  · refine .bind id (local_parameters _) fun params afterParams _ => ?_
    refine .bind id local_type fun returnType afterType _ => ?_
    exact .bind id local_block fun _ _ _ => .pure _

theorem local_extendsClause :
    LocalAt SamePeek (fun stop tokens => Continued.outcome (extendsClause stop tokens))
      stop tokens := by
  refine .of_eq outcome_extendsClause ?_
  by_cases hpeek : peek tokens = .extendsWord
  · apply LocalAt.of_peek id fun _ _ hsame => if_pos (hsame.trans hpeek)
    refine .tail (by rw [hpeek]; decide) (.expect_name ?_ ?_)
    · intro token first other rest hlexeme
      simp only [hlexeme]
    · exact fun _ _ _ => .pure _
  · apply LocalAt.of_peek id fun _ _ hsame => if_neg (hsame ▸ hpeek)
    exact .pure _

/-- Fields look two tokens beyond their end. -/
theorem local_fields :
    LocalAt SameFront (fun stop tokens => Continued.outcome (fields stop tokens)) stop tokens := by
  induction hlength : tokens.length using Nat.strongRecOn generalizing tokens with
  | ind length ih =>
    have hahead : ∀ {value : List VarDec} {used others rest after : List Token},
        tokens = used ++ rest → Continued.outcome (fields stop tokens) = .ok (value, rest) →
        AllAlike used others → SameFront rest after → SameFront (used ++ rest) (others ++ after) :=
      fun _ _ hothers hafter => hafter.append hothers
    by_cases hstarts : startsDeclaration tokens = true
    · apply LocalAt.of_sees id hahead
      · intro other after hfront
        rw [outcome_fields, ← hfront.declaration, if_pos hstarts]
      · refine .bind (·.peek) (local_declaration _) fun dec after hdec => ?_
        have hshort := Parsed.length_of_outcome hdec
        exact .map (fun _ _ _ => rfl) (ih after.length (hlength ▸ hshort) rfl)
    · apply LocalAt.of_sees id hahead
      · intro other after hfront
        rw [outcome_fields, ← hfront.declaration, if_neg hstarts]
      · exact .pure []

section Sequence

variable {α : Type} {kind : Kind} {read : Reader α} {loop : Reader (List α)}

/-- A loop that reads constructs for as long as one starts with the given kind. -/
theorem local_sequence
    (hloop : ∀ stop tokens, loop stop tokens =
      if peek tokens = kind then do
        let (first, after) ← read stop tokens
        let (others, rest) ← loop stop after
        .ok (first :: others, rest)
      else .ok ([], tokens))
    (hread : ∀ tokens, LocalAt SamePeek read stop tokens)
    (hshorter : ∀ {tokens rest : List Token} {item : α}, read stop tokens = .ok (item, rest) →
      rest.length < tokens.length) : LocalAt SamePeek loop stop tokens := by
  induction hlength : tokens.length using Nat.strongRecOn generalizing tokens with
  | ind length ih =>
    refine .of_eq hloop ?_
    by_cases hpeek : peek tokens = kind
    · apply LocalAt.of_peek id fun _ _ hsame => if_pos (hsame.trans hpeek)
      refine .bind id (hread tokens) fun first after hfirst => ?_
      have hafter := ih after.length (hlength ▸ hshorter hfirst) rfl
      exact .bind id hafter fun _ _ _ => .pure _
    · apply LocalAt.of_peek id fun _ _ hsame => if_neg (hsame ▸ hpeek)
      exact .pure []

end Sequence

theorem local_methods :
    LocalAt SamePeek (fun stop tokens => Continued.outcome (methods stop tokens)) stop tokens :=
  local_sequence outcome_methods (fun _ => local_method) Parsed.length_of_outcome

theorem local_classDef :
    LocalAt SamePeek (fun stop tokens => Parsed.outcome (classDef stop tokens)) stop tokens := by
  refine .of_eq outcome_classDef ?_
  refine .expect (by decide) (fun _ _ _ _ _ => rfl) fun word afterWord _ _ => ?_
  refine .expect_name ?_ fun name afterName _ => ?_
  · intro token first other rest hlexeme
    simp only [hlexeme]
  · refine .bind id local_extendsClause fun base afterBase _ => ?_
    refine .expect (by decide) (fun _ _ _ _ _ => rfl) fun opening afterOpen _ _ => ?_
    refine .bind_construct local_fields (fun fields afterFields _ => ?_) ?_
    · refine .bind id (local_constructor _ _) fun init afterInit _ => ?_
      refine .bind id local_methods fun methods afterMethods _ => ?_
      exact .expect (by decide) (fun _ _ _ _ _ => rfl) fun _ _ _ _ => .pure _
    · intro fields result tokens rest hok
      obtain ⟨⟨init, afterInit⟩, hinit, hfromMethods⟩ := bind_eq_ok hok
      obtain ⟨⟨methods, afterMethods⟩, hmethods, hfromClose⟩ := bind_eq_ok hfromMethods
      obtain ⟨⟨closing, last⟩, hclosing, hlast⟩ := bind_eq_ok hfromClose
      cases hlast
      have hshort := Parsed.length_of_outcome hinit
      have hnotLonger := Continued.length_of_outcome hmethods
      have hshorter := Parsed.length_of_outcome hclosing
      omega

theorem local_classes :
    LocalAt SamePeek (fun stop tokens => Continued.outcome (classes stop tokens)) stop tokens :=
  local_sequence outcome_classes (fun _ => local_classDef) Parsed.length_of_outcome

theorem local_finalStatements :
    LocalAt SamePeek (fun stop tokens => Continued.outcome (finalStatements stop tokens))
      stop tokens := by
  induction hlength : tokens.length using Nat.strongRecOn generalizing tokens with
  | ind length ih =>
    refine .of_eq outcome_finalStatements ?_
    by_cases hend : peek tokens = .eof
    · apply LocalAt.of_peek id fun _ _ hsame => if_pos (hsame.trans hend)
      exact .pure []
    · apply LocalAt.of_peek id fun _ _ hsame => if_neg (hsame ▸ hend)
      refine .bind id (statementsLocal _ _).statement fun stmt after hstmt => ?_
      have hshort := Parsed.length_of_outcome hstmt
      exact .bind id (ih after.length (hlength ▸ hshort) rfl) fun _ _ _ => .pure _

/-- A program is read alike from alike tokens. -/
theorem local_program :
    LocalAt SamePeek (fun stop tokens => Parsed.outcome (program stop tokens)) stop tokens := by
  refine .of_eq outcome_program (.bind id local_classes fun classes afterClasses _ => ?_)
  by_cases hend : peek afterClasses = .eof
  · refine .fail rfl rfl ?_ (if_pos hend)
    intro other after hfront
    exact if_pos (hfront.peek.symm.trans hend)
  · apply LocalAt.of_peek id fun _ _ hsame => if_neg (hsame ▸ hend)
    refine .bind id (statementsLocal _ _).statement fun stmt after _ => ?_
    exact .bind id local_finalStatements fun _ _ _ => .pure _

end Class

end ClassLang.Parser
