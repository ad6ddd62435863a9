import ClassLang.Proofs.Grammar
import ClassLang.Proofs.Outcome

/-!
# How constructs start

The first kind of a construct is what the parser looks at when it chooses how
to go on.
-/

namespace ClassLang

namespace Grammar

/-- The kinds with which a statement can start. -/
def statementKinds : List Kind :=
  Parser.primaryKinds ++ [.intWord, .boolWord, .voidWord, .breakWord, .returnWord, .openBrace,
    .whileWord, .ifWord]

def StartsWith (kinds : List Kind) (lexemes : List Lexeme) : Prop :=
  ∃ first others, lexemes = first :: others ∧ first.kind ∈ kinds

theorem StartsWith.append {kinds : List Kind} {lexemes : List Lexeme}
    (hstarts : StartsWith kinds lexemes) (others : List Lexeme) :
    StartsWith kinds (lexemes ++ others) := by
  obtain ⟨first, after, rfl, hkind⟩ := hstarts
  exact ⟨first, after ++ others, rfl, hkind⟩

theorem StartsWith.mono {kinds more : List Kind} {lexemes : List Lexeme}
    (hstarts : StartsWith kinds lexemes) (hsubset : kinds ⊆ more) : StartsWith more lexemes := by
  obtain ⟨first, after, rfl, hkind⟩ := hstarts
  exact ⟨first, after, rfl, hsubset hkind⟩

/-- The first token is of one of the kinds. -/
theorem StartsWith.peek_mem {kinds : List Kind} {used : List Token}
    (hstarts : StartsWith kinds (used.map Token.toLexeme)) (rest : List Token) :
    Parser.peek (used ++ rest) ∈ kinds := by
  obtain ⟨first, others, heq, hkind⟩ := hstarts
  obtain ⟨token, after, rfl, rfl, -⟩ := List.map_eq_cons_iff.mp heq
  exact hkind

theorem StartsWith.peek_not_mem {kinds apart : List Kind} {used : List Token}
    (hstarts : StartsWith kinds (used.map Token.toLexeme)) (rest : List Token)
    (hapart : ∀ kind ∈ kinds, kind ∉ apart) : Parser.peek (used ++ rest) ∉ apart :=
  hapart _ (hstarts.peek_mem rest)

/-- The first token is of no other kind. -/
theorem StartsWith.peek_ne {kinds : List Kind} {kind : Kind} {used : List Token}
    (hstarts : StartsWith kinds (used.map Token.toLexeme)) (rest : List Token)
    (hkind : kind ∉ kinds) : Parser.peek (used ++ rest) ≠ kind :=
  fun heq => hkind (heq ▸ hstarts.peek_mem rest)

theorem IsPrimary.starts {lexemes : List Lexeme} {exp : Exp} (hexp : IsPrimary lexemes exp) :
    StartsWith Parser.primaryKinds lexemes := by
  cases hexp
  all_goals exact ⟨_, _, rfl, by simp [Parser.primaryKinds, *]⟩

theorem IsChain.starts :
    ∀ {lexemes : List Lexeme} {exp : Exp}, IsChain lexemes exp →
      StartsWith Parser.primaryKinds lexemes
  | _, _, .primary hexp => hexp.starts
  | _, _, .member hreceiver _ _ => hreceiver.starts.append _
  | _, _, .call hreceiver _ _ _ => hreceiver.starts.append _

theorem IsProduct.starts :
    ∀ {lexemes : List Lexeme} {exp : Exp}, IsProduct lexemes exp →
      StartsWith Parser.primaryKinds lexemes
  | _, _, .chain hexp => hexp.starts
  | _, _, .operator hleft _ _ => hleft.starts.append _

/-- An expression starts like a primary one. -/
theorem IsSum.starts :
    ∀ {lexemes : List Lexeme} {exp : Exp}, IsSum lexemes exp →
      StartsWith Parser.primaryKinds lexemes
  | _, _, .product hexp => hexp.starts
  | _, _, .operator hleft _ _ => hleft.starts.append _

theorem IsArgumentList.starts {lexemes : List Lexeme} {exps : List Exp}
    (hexps : IsArgumentList lexemes exps) : StartsWith Parser.primaryKinds lexemes := by
  cases hexps with
  | last hexp => exact hexp.starts
  | cons hexp _ _ => exact hexp.starts.append _

theorem IsArguments.starts {lexemes : List Lexeme} {exps : List Exp}
    (hexps : IsArguments lexemes exps) : StartsWith [.openParen] lexemes := by
  cases hexps with
  | none hopening _ => exact ⟨_, _, rfl, List.mem_singleton.mpr hopening⟩
  | some hopening _ _ => exact ⟨_, _, rfl, List.mem_singleton.mpr hopening⟩

theorem IsTypedName.starts {lexemes : List Lexeme} {dec : VarDec}
    (hdec : IsTypedName lexemes dec) :
    StartsWith [.intWord, .boolWord, .voidWord, .ident] lexemes := by
  obtain ⟨htype, _⟩ := hdec
  cases htype
  all_goals exact ⟨_, _, rfl, by simp [*]⟩

theorem IsDeclaration.starts {lexemes : List Lexeme} {dec : VarDec}
    (hdec : IsDeclaration lexemes dec) :
    StartsWith [.intWord, .boolWord, .voidWord, .ident] lexemes := by
  obtain ⟨hname, _⟩ := hdec
  exact hname.starts.append _

theorem IsParameterList.starts {lexemes : List Lexeme} {params : List VarDec}
    (hparams : IsParameterList lexemes params) :
    StartsWith [.intWord, .boolWord, .voidWord, .ident] lexemes := by
  cases hparams with
  | last hparam => exact hparam.starts
  | cons hparam _ _ => exact hparam.starts.append _

/-- The kinds that a statement can start with. -/
theorem IsStmt.starts : ∀ {lexemes : List Lexeme} {stmt : Stmt}, IsStmt lexemes stmt →
    StartsWith statementKinds lexemes
  | _, _, .declare hdec => hdec.starts.mono (by decide)
  | _, _, .expression hexp _ => (hexp.starts.append _).mono (by decide)
  | _, _, .assign hleft _ _ _ _ => ((hleft.starts.append _).append _).mono (by decide)
  | _, _, .breakLoop hword _ => ⟨_, _, rfl, by rw [hword]; decide⟩
  | _, _, .returnNone hword _ => ⟨_, _, rfl, by rw [hword]; decide⟩
  | _, _, .returnValue hword _ _ => ⟨_, _, rfl, by rw [hword]; decide⟩
  | _, _, .block hopening _ _ => ⟨_, _, rfl, by rw [hopening]; decide⟩
  | _, _, .whileLoop (.intro hword _ _ _) _ => ⟨_, _, rfl, by rw [hword]; decide⟩
  | _, _, .ifThen (.intro hword _ _ _) _ => ⟨_, _, rfl, by rw [hword]; decide⟩
  | _, _, .ifElse (.intro hword _ _ _) _ _ _ _ => ⟨_, _, rfl, by rw [hword]; decide⟩

/-- Statements and what follows them start like a statement or like what
follows. -/
theorem IsStmts.peek_ne {lexemes : List Lexeme} {stmts : List Stmt}
    (hstmts : IsStmts lexemes stmts) {used rest : List Token} {kind : Kind}
    (hused : used.map Token.toLexeme = lexemes) (hkind : kind ∉ statementKinds)
    (hrest : Parser.peek rest ≠ kind) : Parser.peek (used ++ rest) ≠ kind := by
  cases hstmts with
  | nil =>
    rw [List.map_eq_nil_iff.mp hused]
    exact hrest
  | cons hstmt _ =>
    have hstarts : StartsWith statementKinds (used.map Token.toLexeme) :=
      hused ▸ hstmt.starts.append _
    exact hstarts.peek_ne rest hkind

end Grammar

end ClassLang
