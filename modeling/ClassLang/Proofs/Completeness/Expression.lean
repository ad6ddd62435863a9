import ClassLang.Proofs.FirstKind
import ClassLang.Proofs.Soundness.Expression

/-!
# The parser reads every expression of the grammar

Tokens that write a tree are read as that tree, whatever follows them, as long
as what follows could not belong to the tree as well.  For the left recursive
constructs the parser runs loops: a derivation says where the loop stands once
it is through with the derived tokens.
-/

namespace ClassLang

open Grammar

namespace Parser

/-- The kinds that would go on with an operand of a level. -/
def Level.operandExtensions : Level → List Kind
  | .product => [.period, .openParen]
  | .sum => [.period, .openParen, .star, .slash]

/-- The kinds that would go on with an expression of a level. -/
def Level.extensions (level : Level) : List Kind :=
  level.operandExtensions ++ level.opTable.map Prod.fst

/-- An operator of a level does not extend an operand of it, so the operand ends before
the operator. -/
theorem Level.not_mem_operandExtensions {level : Level} {kind : Kind} {op : Op}
    (hop : (kind, op) ∈ level.opTable) : kind ∉ level.operandExtensions := by
  cases level <;> simp [opTable, sumOperators, productOperators] at hop <;>
    rcases hop with ⟨rfl, -⟩ | ⟨rfl, -⟩ <;> decide

theorem Level.op?_eq_none {level : Level} {kind : Kind}
    (hkind : kind ∉ level.opTable.map Prod.fst) : level.op? kind = none := by
  cases hop : level.op? kind with
  | none => rfl
  | some op =>
    exact absurd (List.mem_map_of_mem (op?_eq_some_iff.mp hop)) hkind

/-! ## Steps of the expression parsers -/

section Step

variable {stop : Span} {tokens rest : List Token}

theorem outcome_expect_one {kind : Kind} {token : Token} (context : String)
    (hkind : token.toLexeme.kind = kind) (rest : List Token) :
    Parsed.outcome (expect stop context [kind] (token :: rest)) = .ok (token, rest) :=
  outcome_expect_cons stop context rest (List.mem_singleton.mpr hkind)

theorem outcome_binary_of_operand {level : Level} {left : Exp}
    (hleft : Parsed.outcome (operand stop level tokens) = .ok (left, rest)) :
    Parsed.outcome (binary stop level tokens) =
      Continued.outcome (operators stop level left rest) := by
  rw [outcome_binary, hleft]
  rfl

/-- The loop over operators ends at a token that is none of its level. -/
theorem outcome_operators_end {level : Level} {left : Exp}
    (hop : level.op? (peek rest) = none) :
    Continued.outcome (operators stop level left rest) = .ok (left, rest) := by
  rw [outcome_operators, hop]

/-- An operator and its operand are folded into the left side. -/
theorem outcome_operators_cons {level : Level} {left right : Exp} {sign : Token} {op : Op}
    (hop : (sign.toLexeme.kind, op) ∈ level.opTable)
    (hright : Parsed.outcome (operand stop level tokens) = .ok (right, rest)) :
    Continued.outcome (operators stop level left (sign :: tokens)) =
      Continued.outcome (operators stop level (.binary left op right) rest) := by
  have hsome : level.op? (peek (sign :: tokens)) = some op := Level.op?_eq_some_iff.mpr hop
  rw [outcome_operators, hsome]
  dsimp only
  rw [List.tail_cons, hright]
  rfl

/-- The loop over members ends at a token that is no period. -/
theorem outcome_members_end {receiver : Exp} (hpeek : peek rest ≠ .period) :
    Continued.outcome (members stop receiver rest) = .ok (receiver, rest) := by
  rw [outcome_members, if_neg hpeek]

theorem outcome_members_member {receiver : Exp} {period name : Token}
    (hperiod : period.toLexeme.kind = .period) (hname : name.toLexeme.kind = .ident)
    (hpeek : peek rest ≠ .openParen) :
    Continued.outcome (members stop receiver (period :: name :: rest)) =
      Continued.outcome (members stop (.binary receiver .member (.name name.lexeme)) rest) := by
  have hstart : peek (period :: name :: rest) = .period := hperiod
  rw [outcome_members, if_pos hstart, List.tail_cons, outcome_expect_one _ hname]
  exact if_neg hpeek

theorem outcome_members_call {receiver : Exp} {period name : Token} {args : List Exp}
    (hperiod : period.toLexeme.kind = .period) (hname : name.toLexeme.kind = .ident)
    (hpeek : peek tokens = .openParen)
    (hargs : Parsed.outcome (arguments stop "method call" tokens) = .ok (args, rest)) :
    Continued.outcome (members stop receiver (period :: name :: tokens)) =
      Continued.outcome
        (members stop (.binary receiver .member (.call (.name name.lexeme) args)) rest) := by
  have hstart : peek (period :: name :: tokens) = .period := hperiod
  rw [outcome_members, if_pos hstart, List.tail_cons, outcome_expect_one _ hname]
  refine (if_pos hpeek).trans ?_
  rw [hargs]
  rfl

end Step

/-! ## Expressions

What a derivation promises.  The tokens after the derived ones are arbitrary up
to their first kind. -/

section Expressions

variable (stop : Span)

def PrimaryParses (lexemes : List Lexeme) (exp : Exp) : Prop :=
  ∀ used rest : List Token, used.map Token.toLexeme = lexemes →
    Parsed.outcome (primary stop (used ++ rest)) = .ok (exp, rest)

/-- After a member chain, the loop over the members stands behind it. -/
def ChainParses (lexemes : List Lexeme) (exp : Exp) : Prop :=
  ∀ used rest : List Token, used.map Token.toLexeme = lexemes → peek rest ≠ .openParen →
    Parsed.outcome (chain stop (used ++ rest)) = Continued.outcome (members stop exp rest)

def Level.OperandParses (level : Level) (lexemes : List Lexeme) (exp : Exp) : Prop :=
  ∀ used rest : List Token, used.map Token.toLexeme = lexemes →
    peek rest ∉ level.operandExtensions →
    Parsed.outcome (operand stop level (used ++ rest)) = .ok (exp, rest)

/-- After an expression of a level, the loop over the operators of the level
stands behind it. -/
def Level.Parses (level : Level) (lexemes : List Lexeme) (exp : Exp) : Prop :=
  ∀ used rest : List Token, used.map Token.toLexeme = lexemes →
    peek rest ∉ level.operandExtensions →
    Parsed.outcome (binary stop level (used ++ rest)) =
      Continued.outcome (operators stop level exp rest)

def ArgumentsParse (lexemes : List Lexeme) (exps : List Exp) : Prop :=
  ∀ (context : String) (used rest : List Token), used.map Token.toLexeme = lexemes →
    Parsed.outcome (arguments stop context (used ++ rest)) = .ok (exps, rest)

def ArgumentListParses (lexemes : List Lexeme) (exps : List Exp) : Prop :=
  ∀ (context : String) (used rest : List Token) (closing : Token),
    used.map Token.toLexeme = lexemes → closing.toLexeme.kind = .closeParen →
    Parsed.outcome (argumentList stop context (used ++ closing :: rest)) = .ok (exps, rest)

variable {stop} {lexemes : List Lexeme} {exp : Exp}

/-- An operand is an expression of its level. -/
theorem Level.Parses.operand {level : Level} (hexp : level.OperandParses stop lexemes exp) :
    level.Parses stop lexemes exp := by
  intro used rest hused hrest
  exact outcome_binary_of_operand (hexp used rest hused hrest)

/-- An expression of a level, an operator and an operand are one of the level again.  This
is where operators come out grouped to the left. -/
theorem Level.Parses.operator {level : Level} {left right : List Lexeme} {sign : Lexeme}
    {op : Op} {leftExp rightExp : Exp} (hleft : level.Parses stop left leftExp)
    (hop : (sign.kind, op) ∈ level.opTable)
    (hright : level.OperandParses stop right rightExp) :
    level.Parses stop (left ++ sign :: right) (.binary leftExp op rightExp) := by
  intro used rest hused hrest
  simp only [List.map_eq_append_iff, List.map_eq_cons_iff] at hused
  obtain ⟨usedLeft, _, rfl, hleftUsed, token, usedRight, rfl, rfl, hrightUsed⟩ := hused
  have hsign : peek (token :: (usedRight ++ rest)) ∉ level.operandExtensions :=
    not_mem_operandExtensions hop
  rw [List.append_assoc, List.cons_append, hleft usedLeft _ hleftUsed hsign]
  exact outcome_operators_cons hop (hright usedRight rest hrightUsed hrest)

/-- An expression that nothing goes on with is read to its end. -/
theorem Level.Parses.whole {level : Level} (hexp : level.Parses stop lexemes exp)
    {used rest : List Token} (hused : used.map Token.toLexeme = lexemes)
    (hrest : peek rest ∉ level.extensions) :
    Parsed.outcome (binary stop level (used ++ rest)) = .ok (exp, rest) := by
  have hoperand : peek rest ∉ level.operandExtensions :=
    fun hmem => hrest (List.mem_append_left _ hmem)
  have hop : level.op? (peek rest) = none :=
    op?_eq_none fun hmem => hrest (List.mem_append_right _ hmem)
  rw [hexp used rest hused hoperand, outcome_operators_end hop]

theorem Level.OperandParses.product (hexp : Level.product.Parses stop lexemes exp) :
    Level.sum.OperandParses stop lexemes exp := by
  intro used rest hused hrest
  rw [operand_sum]
  exact hexp.whole hused hrest

theorem Level.OperandParses.chain (hexp : ChainParses stop lexemes exp) :
    Level.product.OperandParses stop lexemes exp := by
  intro used rest hused hrest
  have hcall : peek rest ≠ .openParen := fun heq => hrest (by rw [heq]; decide)
  have hperiod : peek rest ≠ .period := fun heq => hrest (by rw [heq]; decide)
  rw [operand_product, hexp used rest hused hcall, outcome_members_end hperiod]

theorem ChainParses.primary (hexp : PrimaryParses stop lexemes exp) :
    ChainParses stop lexemes exp := by
  intro used rest hused _
  rw [outcome_chain, hexp used rest hused]
  rfl

/-- A member of a chain makes a longer chain. -/
theorem ChainParses.member {period name : Lexeme} (hexp : ChainParses stop lexemes exp)
    (hperiod : period.kind = .period) (hname : name.kind = .ident) :
    ChainParses stop (lexemes ++ [period, name]) (.binary exp .member (.name name.text)) := by
  intro used rest hused hrest
  simp only [List.map_eq_append_iff, List.map_eq_cons_iff, List.map_eq_nil_iff] at hused
  obtain ⟨receiver, _, rfl, hreceiver, dot, _, rfl, rfl, token, _, rfl, rfl, rfl⟩ := hused
  have hdot : peek (dot :: token :: rest) ≠ .openParen := by
    have hkind : dot.kind = .period := hperiod
    rw [peek_cons, hkind]
    decide
  rw [List.append_assoc, Token.text_toLexeme]
  exact (hexp receiver _ hreceiver hdot).trans (outcome_members_member hperiod hname hrest)

/-- So does a call, whose arguments start at the parenthesis. -/
theorem ChainParses.call {args : List Lexeme} {period name : Lexeme} {exps : List Exp}
    (hexp : ChainParses stop lexemes exp) (hperiod : period.kind = .period)
    (hname : name.kind = .ident) (hstarts : StartsWith [.openParen] args)
    (hargs : ArgumentsParse stop args exps) :
    ChainParses stop (lexemes ++ period :: name :: args)
      (.binary exp .member (.call (.name name.text) exps)) := by
  intro used rest hused _
  simp only [List.map_eq_append_iff, List.map_eq_cons_iff] at hused
  obtain ⟨receiver, _, rfl, hreceiver, dot, _, rfl, rfl, token, usedArgs, rfl, rfl, rfl⟩ := hused
  have hdot : peek (dot :: token :: (usedArgs ++ rest)) ≠ .openParen := by
    have hkind : dot.kind = .period := hperiod
    rw [peek_cons, hkind]
    decide
  have hpeek : peek (usedArgs ++ rest) = .openParen := List.mem_singleton.mp (hstarts.peek_mem rest)
  rw [List.append_assoc, Token.text_toLexeme]
  exact (hexp receiver _ hreceiver hdot).trans
    (outcome_members_call hperiod hname hpeek (hargs _ usedArgs rest rfl))

/-- A primary expression that is a single word. -/
theorem PrimaryParses.word {word : Lexeme}
    (hword : (word.kind, exp) ∈ [(Kind.trueWord, Exp.bool true), (.falseWord, .bool false),
      (.thisWord, .this), (.ident, .name word.text)]) : PrimaryParses stop [word] exp := by
  intro used rest hused
  obtain ⟨token, rfl, rfl⟩ := List.map_eq_singleton_iff.mp hused
  simp only [Token.kind_toLexeme, Token.text_toLexeme, List.mem_cons, Prod.mk.injEq,
    List.not_mem_nil, or_false] at hword
  rw [List.singleton_append, outcome_primary]
  rcases hword with ⟨hkind, rfl⟩ | ⟨hkind, rfl⟩ | ⟨hkind, rfl⟩ | ⟨hkind, rfl⟩
  all_goals
    rw [outcome_expect_cons stop _ _ (by rw [hkind]; decide)]
    simp only [bind, Except.bind, hkind]

theorem PrimaryParses.int {digits : Lexeme} {value : Nat} (hdigits : digits.kind = .int)
    (hread : Text.readNat? digits.chars = some value) (hvalue : value < Text.signedLimit) :
    PrimaryParses stop [digits] (.int value) := by
  intro used rest hused
  obtain ⟨token, rfl, rfl⟩ := List.map_eq_singleton_iff.mp hused
  have hkind : token.kind = .int := hdigits
  have hint : Text.readInt64? token.lexeme = some (value : Int) :=
    (Text.readInt64?_eq_some_iff (Text.all_isAsciiDigit_of_readNat? hread)).mpr
      ⟨value, hread, hvalue, rfl⟩
  rw [List.singleton_append, outcome_primary,
    outcome_expect_cons stop _ _ (by rw [hkind]; decide)]
  simp only [bind, Except.bind, hkind, hint]

theorem PrimaryParses.new {word name opening closing : Lexeme} (hword : word.kind = .newWord)
    (hname : name.kind = .ident) (hopening : opening.kind = .openParen)
    (hclosing : closing.kind = .closeParen) :
    PrimaryParses stop [word, name, opening, closing] (.new name.text) := by
  intro used rest hused
  simp only [List.map_eq_cons_iff, List.map_eq_nil_iff] at hused
  obtain ⟨first, _, rfl, rfl, second, _, rfl, rfl, third, _, rfl, rfl, fourth, _, rfl, rfl, rfl⟩ :=
    hused
  have hkind : first.kind = .newWord := hword
  simp only [List.cons_append, List.nil_append]
  rw [outcome_primary, outcome_expect_cons stop _ _ (by rw [hkind]; decide)]
  simp only [Token.text_toLexeme, bind, Except.bind, hkind, outcome_expect_one _ hname,
    outcome_expect_one _ hopening, outcome_expect_one _ hclosing]

/-- An expression is read up to a token that cannot go on with it. -/
theorem Level.Parses.before {level : Level} (hexp : level.Parses stop lexemes exp)
    {used rest : List Token} {token : Token} {kind : Kind}
    (hused : used.map Token.toLexeme = lexemes) (hkind : token.toLexeme.kind = kind)
    (hend : kind ∉ level.extensions) :
    Parsed.outcome (binary stop level (used ++ token :: rest)) = .ok (exp, token :: rest) := by
  subst hkind
  exact hexp.whole hused hend

/-- What stands in parentheses ends at the closing one. -/
theorem PrimaryParses.parenthesized {opening closing : Lexeme} {inner : List Lexeme}
    (hopening : opening.kind = .openParen) (hexp : Level.sum.Parses stop inner exp)
    (hclosing : closing.kind = .closeParen) :
    PrimaryParses stop (opening :: inner ++ [closing]) exp := by
  intro used rest hused
  simp only [List.cons_append, List.map_eq_cons_iff, List.map_eq_append_iff,
    List.map_eq_nil_iff] at hused
  obtain ⟨first, _, rfl, rfl, middle, _, rfl, hmiddle, last, _, rfl, rfl, rfl⟩ := hused
  have hkind : first.kind = .openParen := hopening
  simp only [List.cons_append]
  rw [List.append_assoc middle, List.singleton_append, outcome_primary,
    outcome_expect_cons stop _ _ (by rw [hkind]; decide)]
  simp only [bind, Except.bind, hkind, hexp.before hmiddle hclosing (by decide),
    outcome_expect_one _ hclosing]

theorem PrimaryParses.println {word opening closing : Lexeme} {inner : List Lexeme}
    (hword : word.kind = .printlnWord) (hopening : opening.kind = .openParen)
    (hexp : Level.sum.Parses stop inner exp) (hclosing : closing.kind = .closeParen) :
    PrimaryParses stop (word :: opening :: inner ++ [closing]) (.println exp) := by
  intro used rest hused
  simp only [List.cons_append, List.map_eq_cons_iff, List.map_eq_append_iff,
    List.map_eq_nil_iff] at hused
  obtain ⟨first, _, rfl, rfl, second, _, rfl, rfl, middle, _, rfl, hmiddle, last, _, rfl, rfl,
    rfl⟩ := hused
  have hkind : first.kind = .printlnWord := hword
  simp only [List.cons_append]
  rw [List.append_assoc middle, List.singleton_append, outcome_primary,
    outcome_expect_cons stop _ _ (by rw [hkind]; decide)]
  simp only [bind, Except.bind, hkind, outcome_expect_one _ hopening,
    hexp.before hmiddle hclosing (by decide), outcome_expect_one _ hclosing]

theorem ArgumentsParse.none {opening closing : Lexeme} (hopening : opening.kind = .openParen)
    (hclosing : closing.kind = .closeParen) : ArgumentsParse stop [opening, closing] [] := by
  intro context used rest hused
  simp only [List.map_eq_cons_iff, List.map_eq_nil_iff] at hused
  obtain ⟨first, _, rfl, rfl, last, _, rfl, rfl, rfl⟩ := hused
  simp only [List.cons_append, List.nil_append]
  rw [outcome_arguments, outcome_expect_one _ hopening]
  exact if_pos hclosing

theorem ArgumentsParse.some {opening closing : Lexeme} {inner : List Lexeme} {exps : List Exp}
    (hopening : opening.kind = .openParen) (hstarts : StartsWith primaryKinds inner)
    (hexps : ArgumentListParses stop inner exps) (hclosing : closing.kind = .closeParen) :
    ArgumentsParse stop (opening :: inner ++ [closing]) exps := by
  intro context used rest hused
  simp only [List.cons_append, List.map_eq_cons_iff, List.map_eq_append_iff,
    List.map_eq_nil_iff] at hused
  obtain ⟨first, _, rfl, rfl, middle, _, rfl, rfl, last, _, rfl, rfl, rfl⟩ := hused
  simp only [List.cons_append]
  rw [List.append_assoc middle, List.singleton_append, outcome_arguments,
    outcome_expect_one _ hopening]
  have hpeek : peek (middle ++ last :: rest) ≠ .closeParen := hstarts.peek_ne _ (by decide)
  exact (if_neg hpeek).trans (hexps context middle rest last rfl hclosing)

theorem ArgumentListParses.last (hexp : Level.sum.Parses stop lexemes exp) :
    ArgumentListParses stop lexemes [exp] := by
  intro context used rest closing hused hclosing
  have hkind : closing.kind = .closeParen := hclosing
  rw [outcome_argumentList, hexp.before hused hclosing (by decide)]
  simp only [bind, Except.bind]
  rw [outcome_expect_cons stop _ _ (by rw [hkind]; decide)]
  exact if_pos hkind

/-- An argument ends at the comma, and the others follow. -/
theorem ArgumentListParses.cons {others : List Lexeme} {comma : Lexeme} {exps : List Exp}
    (hexp : Level.sum.Parses stop lexemes exp) (hcomma : comma.kind = .comma)
    (hexps : ArgumentListParses stop others exps) :
    ArgumentListParses stop (lexemes ++ comma :: others) (exp :: exps) := by
  intro context used rest closing hused hclosing
  simp only [List.map_eq_append_iff, List.map_eq_cons_iff] at hused
  obtain ⟨first, _, rfl, hfirst, mark, after, rfl, rfl, hafter⟩ := hused
  have hkind : mark.kind = .comma := hcomma
  rw [List.append_assoc, List.cons_append, outcome_argumentList,
    hexp.before hfirst hcomma (by decide)]
  simp only [bind, Except.bind]
  rw [outcome_expect_cons stop _ _ (by rw [hkind]; decide)]
  refine (if_neg (by rw [hkind]; decide)).trans ?_
  rw [hexps context after rest closing hafter hclosing]

end Expressions

section Derivations

variable (stop : Span)

mutual

/-- What the grammar calls an expression is parsed as one.  The induction follows the
grammar, one case per rule. -/
theorem sum_parses : ∀ {lexemes : List Lexeme} {exp : Exp}, IsSum lexemes exp →
    Level.sum.Parses stop lexemes exp
  | _, _, .product hexp => .operand (.product (product_parses hexp))
  | _, _, .operator hleft hop hright =>
    .operator (sum_parses hleft) hop (.product (product_parses hright))

theorem product_parses : ∀ {lexemes : List Lexeme} {exp : Exp}, IsProduct lexemes exp →
    Level.product.Parses stop lexemes exp
  | _, _, .chain hexp => .operand (.chain (chain_parses hexp))
  | _, _, .operator hleft hop hright =>
    .operator (product_parses hleft) hop (.chain (chain_parses hright))

theorem chain_parses : ∀ {lexemes : List Lexeme} {exp : Exp}, IsChain lexemes exp →
    ChainParses stop lexemes exp
  | _, _, .primary hexp => .primary (primary_parses hexp)
  | _, _, .member hexp hperiod hname => (chain_parses hexp).member hperiod hname
  | _, _, .call hexp hperiod hname hargs =>
    (chain_parses hexp).call hperiod hname hargs.starts (arguments_parse hargs)

theorem primary_parses : ∀ {lexemes : List Lexeme} {exp : Exp}, IsPrimary lexemes exp →
    PrimaryParses stop lexemes exp
  | _, _, .int hdigits hread hvalue => .int hdigits hread hvalue
  | _, _, .trueWord hword => .word (by simp [hword])
  | _, _, .falseWord hword => .word (by simp [hword])
  | _, _, .this hword => .word (by simp [hword])
  | _, _, .name hname => .word (by simp [hname])
  | _, _, .new hword hname hopening hclosing => .new hword hname hopening hclosing
  | _, _, .parenthesized hopening hexp hclosing =>
    .parenthesized hopening (sum_parses hexp) hclosing
  | _, _, .println hword hopening hexp hclosing =>
    .println hword hopening (sum_parses hexp) hclosing

theorem arguments_parse : ∀ {lexemes : List Lexeme} {exps : List Exp}, IsArguments lexemes exps →
    ArgumentsParse stop lexemes exps
  | _, _, .none hopening hclosing => .none hopening hclosing
  | _, _, .some hopening hexps hclosing =>
    .some hopening hexps.starts (argumentList_parses hexps) hclosing

theorem argumentList_parses : ∀ {lexemes : List Lexeme} {exps : List Exp},
    IsArgumentList lexemes exps → ArgumentListParses stop lexemes exps
  | _, _, .last hexp => .last (sum_parses hexp)
  | _, _, .cons hexp hcomma hexps => .cons (sum_parses hexp) hcomma (argumentList_parses hexps)

end

end Derivations

end Parser

end ClassLang
