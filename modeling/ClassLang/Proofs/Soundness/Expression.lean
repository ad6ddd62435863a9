import ClassLang.Proofs.Outcome
import ClassLang.Proofs.Scanning

/-!
# The parser reads only expressions of the grammar

Whatever a parser reads from tokens that a scanner made, the tokens it took are
a construct of the grammar with the returned tree.  The induction is on the
number of tokens; a loop carries the lexemes that belong to the tree it has
built so far.
-/

namespace ClassLang

namespace Grammar

/-- The tokens before the rest are a construct with the given tree. -/
def Reads {α : Type} (IsItem : List Lexeme → α → Prop) (tokens : List Token) (item : α)
    (rest : List Token) : Prop :=
  ∃ used, tokens = used ++ rest ∧ IsItem (used.map Token.toLexeme) item

/-- Tokens as a scanner makes them. -/
def AllProper (tokens : List Token) : Prop :=
  ∀ token ∈ tokens, token.toLexeme.Proper

theorem AllProper.append_left {used rest : List Token} (hproper : AllProper (used ++ rest)) :
    AllProper used :=
  fun token hmem => hproper token (List.mem_append_left rest hmem)

theorem AllProper.append_right {used rest : List Token} (hproper : AllProper (used ++ rest)) :
    AllProper rest :=
  fun token hmem => hproper token (List.mem_append_right used hmem)

theorem AllProper.tail {token : Token} {rest : List Token}
    (hproper : AllProper (token :: rest)) : AllProper rest :=
  fun other hmem => hproper other (List.mem_cons_of_mem token hmem)

theorem AllProper.head {token : Token} {rest : List Token}
    (hproper : AllProper (token :: rest)) : token.toLexeme.Proper :=
  hproper token List.mem_cons_self

/-- A proper identifier has a name. -/
theorem AllProper.head_lexeme_isEmpty {token : Token} {rest : List Token}
    (hproper : AllProper (token :: rest)) (hident : token.toLexeme.kind = .ident) :
    token.lexeme.isEmpty = false := by
  have hname := hproper.head.name hident
  rw [Token.text_toLexeme] at hname
  apply Bool.eq_false_iff.mpr
  intro hempty
  rw [String.isEmpty_iff.mp hempty] at hname
  cases hname

end Grammar

open Grammar

namespace Parser

/-- A parser that begins with a token of one kind finds it and goes on behind it. -/
theorem exists_cons_of_expect {α : Type} {stop : Span} {context : String} {kind : Kind}
    {tokens : List Token} {value : α} {next : Token × List Token → Except SourceError α}
    (heq : Parsed.outcome (expect stop context [kind] tokens) >>= next = .ok value) :
    ∃ token rest, tokens = token :: rest ∧ token.toLexeme.kind = kind ∧
      next (token, rest) = .ok value := by
  obtain ⟨⟨token, rest⟩, htoken, hnext⟩ := bind_eq_ok heq
  obtain ⟨rfl, hkind⟩ := eq_cons_of_outcome_expect htoken
  exact ⟨token, rest, rfl, List.mem_singleton.mp hkind, hnext⟩

theorem exists_cons_of_peek {kind : Kind} {tokens : List Token} (hpeek : peek tokens = kind)
    (hend : kind ≠ .eof) : ∃ token rest, tokens = token :: rest ∧ token.toLexeme.kind = kind := by
  cases tokens with
  | nil => exact absurd hpeek.symm hend
  | cons token rest => exact ⟨token, rest, rfl, hpeek⟩

/-! ## Levels of arithmetic -/

def Level.IsExp : Level → List Lexeme → Exp → Prop
  | .sum => IsSum
  | .product => IsProduct

def Level.IsOperand : Level → List Lexeme → Exp → Prop
  | .sum => IsProduct
  | .product => IsChain

def Level.opTable : Level → List (Kind × Op)
  | .sum => sumOperators
  | .product => productOperators

/-- The operators of a level are those of its table. -/
theorem Level.op?_eq_some_iff {level : Level} {kind : Kind} {op : Op} :
    level.op? kind = some op ↔ (kind, op) ∈ level.opTable := by
  cases level <;> cases kind <;> simp [op?, opTable, sumOperators, productOperators, eq_comm]

theorem Level.isExp_operand {level : Level} {lexemes : List Lexeme} {exp : Exp}
    (hexp : level.IsOperand lexemes exp) : level.IsExp lexemes exp := by
  cases level with
  | sum => exact .product hexp
  | product => exact .chain hexp

theorem Level.isExp_operator {level : Level} {left right : List Lexeme} {sign : Lexeme}
    {op : Op} {leftExp rightExp : Exp} (hleft : level.IsExp left leftExp)
    (hop : level.op? sign.kind = some op) (hright : level.IsOperand right rightExp) :
    level.IsExp (left ++ sign :: right) (.binary leftExp op rightExp) := by
  cases level with
  | sum => exact .operator hleft (op?_eq_some_iff.mp hop) hright
  | product => exact .operator hleft (op?_eq_some_iff.mp hop) hright

/-! ## Expressions -/

/-- The parsers of expressions are sound on the given tokens.  A loop is told
which lexemes make up the expression to its left. -/
structure ExpressionsSound (stop : Span) (tokens : List Token) : Prop where
  binary : ∀ {level : Level} {exp : Exp} {rest : List Token},
    Parsed.outcome (binary stop level tokens) = .ok (exp, rest) →
    Reads level.IsExp tokens exp rest
  operand : ∀ {level : Level} {exp : Exp} {rest : List Token},
    Parsed.outcome (operand stop level tokens) = .ok (exp, rest) →
    Reads level.IsOperand tokens exp rest
  operators : ∀ {level : Level} {left exp : Exp} {before : List Lexeme} {rest : List Token},
    level.IsExp before left →
    Continued.outcome (operators stop level left tokens) = .ok (exp, rest) →
    Reads (fun lexemes exp => level.IsExp (before ++ lexemes) exp) tokens exp rest
  members : ∀ {receiver exp : Exp} {before : List Lexeme} {rest : List Token},
    IsChain before receiver →
    Continued.outcome (members stop receiver tokens) = .ok (exp, rest) →
    Reads (fun lexemes exp => IsChain (before ++ lexemes) exp) tokens exp rest
  arguments : ∀ {context : String} {exps : List Exp} {rest : List Token},
    Parsed.outcome (arguments stop context tokens) = .ok (exps, rest) →
    Reads IsArguments tokens exps rest
  argumentList : ∀ {context : String} {exps : List Exp} {rest : List Token},
    Parsed.outcome (argumentList stop context tokens) = .ok (exps, rest) →
    ∃ used closing, tokens = used ++ closing :: rest ∧ closing.toLexeme.kind = .closeParen ∧
      IsArgumentList (used.map Token.toLexeme) exps

/-! Each parser is sound when all of them are sound on shorter lists, and on the
same list those that stand closer to the primary expressions. -/

section Step

variable {stop : Span} {tokens rest : List Token} {exp : Exp}
variable (hproper : AllProper tokens)
variable (hshorter : ∀ shorter, shorter.length < tokens.length → AllProper shorter →
  ExpressionsSound stop shorter)

include hproper hshorter

/-- The loop over operators keeps reading one expression of its level.  What was read
before is part of it. -/
theorem reads_operators {level : Level} {left : Exp} {before : List Lexeme}
    (hleft : level.IsExp before left)
    (heq : Continued.outcome (operators stop level left tokens) = .ok (exp, rest)) :
    Reads (fun lexemes exp => level.IsExp (before ++ lexemes) exp) tokens exp rest := by
  rw [outcome_operators] at heq
  cases hop : level.op? (peek tokens) with
  | none =>
    rw [hop] at heq
    cases heq
    exact ⟨[], rfl, by simpa using hleft⟩
  | some op =>
    rw [hop] at heq
    cases tokens with
    | nil => cases level <;> cases hop
    | cons sign after =>
      have hsign : level.op? sign.toLexeme.kind = some op := hop
      obtain ⟨⟨right, afterRight⟩, hright, hothers⟩ := bind_eq_ok heq
      have hlength := Parsed.length_of_outcome hright
      rw [List.tail_cons] at hlength hright
      obtain ⟨used, rfl, hused⟩ :=
        (hshorter after (by simp) hproper.tail).operand hright
      have hbinary := Level.isExp_operator hleft hsign hused
      obtain ⟨others, rfl, hexp⟩ :=
        (hshorter afterRight (by rw [List.length_cons]; omega)
          hproper.tail.append_right).operators hbinary hothers
      exact ⟨sign :: used ++ others, by simp, by simpa using hexp⟩

/-- The loop over members keeps reading one chain. -/
theorem reads_members {receiver : Exp} {before : List Lexeme} (hreceiver : IsChain before receiver)
    (heq : Continued.outcome (members stop receiver tokens) = .ok (exp, rest)) :
    Reads (fun lexemes exp => IsChain (before ++ lexemes) exp) tokens exp rest := by
  rw [outcome_members] at heq
  by_cases hpeek : peek tokens = .period
  · rw [if_pos hpeek] at heq
    obtain ⟨period, afterPeriod, rfl, hperiod⟩ := exists_cons_of_peek hpeek (by decide)
    rw [List.tail_cons] at heq
    obtain ⟨name, afterName, rfl, hident, hnext⟩ := exists_cons_of_expect heq
    have htext := Token.text_toLexeme name
    have hafter := hshorter afterName (by simp only [List.length_cons]; omega) hproper.tail.tail
    dsimp only at hnext
    split at hnext
    · obtain ⟨⟨args, afterArgs⟩, hargs, hmembers⟩ := bind_eq_ok hnext
      have hlength := Parsed.length_of_outcome hargs
      obtain ⟨used, rfl, hused⟩ := hafter.arguments hargs
      have hcall := IsChain.call hreceiver hperiod hident hused
      rw [htext] at hcall
      obtain ⟨others, rfl, hexp⟩ :=
        (hshorter afterArgs (by simp only [List.length_cons]; omega)
          hproper.tail.tail.append_right).members hcall hmembers
      exact ⟨period :: name :: used ++ others, by simp, by simpa using hexp⟩
    · have hmember := IsChain.member hreceiver hperiod hident
      rw [htext] at hmember
      obtain ⟨others, rfl, hexp⟩ := hafter.members hmember hnext
      exact ⟨period :: name :: others, by simp, by simpa using hexp⟩
  · rw [if_neg hpeek] at heq
    cases heq
    exact ⟨[], rfl, by simpa using hreceiver⟩

theorem reads_arguments {context : String} {exps : List Exp}
    (heq : Parsed.outcome (arguments stop context tokens) = .ok (exps, rest)) :
    Reads IsArguments tokens exps rest := by
  rw [outcome_arguments] at heq
  obtain ⟨opening, after, rfl, hopening, hnext⟩ := exists_cons_of_expect heq
  dsimp only at hnext
  split at hnext
  · next hpeek =>
    obtain ⟨closing, after, rfl, hclosing⟩ := exists_cons_of_peek hpeek (by decide)
    cases hnext
    exact ⟨[opening, closing], rfl, .none hopening hclosing⟩
  · obtain ⟨used, closing, rfl, hclosing, hused⟩ :=
      (hshorter after (by simp) hproper.tail).argumentList hnext
    have hargs := IsArguments.some hopening hused hclosing
    exact ⟨opening :: used ++ [closing], by simp, by simpa using hargs⟩

theorem reads_primary (heq : Parsed.outcome (primary stop tokens) = .ok (exp, rest)) :
    Reads IsPrimary tokens exp rest := by
  rw [outcome_primary] at heq
  obtain ⟨⟨token, after⟩, htoken, hnext⟩ := bind_eq_ok heq
  obtain ⟨rfl, hkinds⟩ := eq_cons_of_outcome_expect htoken
  have htext := Token.text_toLexeme token
  dsimp only at hnext
  split at hnext
  · next hkind =>
    have hdigits := hproper.head.digits hkind
    split at hnext
    · next value hvalue =>
      cases hnext
      obtain ⟨n, hread, hbound, rfl⟩ := (Text.readInt64?_eq_some_iff hdigits).mp hvalue
      exact ⟨[token], rfl, .int hkind hread hbound⟩
    · cases hnext
  · next hkind =>
    cases hnext
    exact ⟨[token], rfl, .trueWord hkind⟩
  · next hkind =>
    cases hnext
    exact ⟨[token], rfl, .falseWord hkind⟩
  · next hkind =>
    cases hnext
    exact ⟨[token], rfl, .this hkind⟩
  · next hkind =>
    have hword : token.toLexeme.kind = .newWord := hkind
    obtain ⟨name, _, rfl, hident, hopen⟩ := exists_cons_of_expect hnext
    obtain ⟨opening, _, rfl, hopening, hclose⟩ := exists_cons_of_expect hopen
    obtain ⟨closing, _, rfl, hclosing, hlast⟩ := exists_cons_of_expect hclose
    cases hlast
    have hnew := IsPrimary.new hword hident hopening hclosing
    rw [Token.text_toLexeme] at hnew
    exact ⟨[token, name, opening, closing], rfl, hnew⟩
  · next hkind =>
    have hopening : token.toLexeme.kind = .openParen := hkind
    obtain ⟨⟨inner, _⟩, hinner, hclose⟩ := bind_eq_ok hnext
    obtain ⟨used, rfl, hused⟩ := (hshorter after (by simp) hproper.tail).binary hinner
    obtain ⟨closing, _, rfl, hclosing, hlast⟩ := exists_cons_of_expect hclose
    cases hlast
    have hparenthesized := IsPrimary.parenthesized hopening hused hclosing
    exact ⟨token :: used ++ [closing], by simp, by simpa using hparenthesized⟩
  · next hkind =>
    have hword : token.toLexeme.kind = .printlnWord := hkind
    obtain ⟨opening, afterOpen, rfl, hopening, hrest⟩ := exists_cons_of_expect hnext
    obtain ⟨⟨inner, _⟩, hinner, hclose⟩ := bind_eq_ok hrest
    obtain ⟨used, rfl, hused⟩ :=
      (hshorter afterOpen (by simp only [List.length_cons]; omega) hproper.tail.tail).binary hinner
    obtain ⟨closing, _, rfl, hclosing, hlast⟩ := exists_cons_of_expect hclose
    cases hlast
    have hprintln := IsPrimary.println hword hopening hused hclosing
    exact ⟨token :: opening :: used ++ [closing], by simp, by simpa using hprintln⟩
  · next hint htrue hfalse hthis hnew hopen hprintln =>
    have hident : token.toLexeme.kind = .ident := by simp_all [primaryKinds]
    cases hnext
    have hname := IsPrimary.name hident
    rw [htext] at hname
    exact ⟨[token], rfl, hname⟩

theorem reads_chain (heq : Parsed.outcome (chain stop tokens) = .ok (exp, rest)) :
    Reads IsChain tokens exp rest := by
  rw [outcome_chain] at heq
  obtain ⟨⟨receiver, after⟩, hreceiver, hmembers⟩ := bind_eq_ok heq
  have hlength := Parsed.length_of_outcome hreceiver
  obtain ⟨used, rfl, hused⟩ := reads_primary hproper hshorter hreceiver
  obtain ⟨others, rfl, hexp⟩ :=
    (hshorter after hlength hproper.append_right).members (.primary hused) hmembers
  exact ⟨used ++ others, by simp, by simpa using hexp⟩

/-- A level of arithmetic is sound when its operands are. -/
theorem reads_binary_of_operand {level : Level}
    (hoperand : ∀ {exp : Exp} {rest : List Token},
      Parsed.outcome (operand stop level tokens) = .ok (exp, rest) →
      Reads level.IsOperand tokens exp rest)
    (heq : Parsed.outcome (binary stop level tokens) = .ok (exp, rest)) :
    Reads level.IsExp tokens exp rest := by
  rw [outcome_binary] at heq
  obtain ⟨⟨left, after⟩, hleft, hothers⟩ := bind_eq_ok heq
  have hlength := Parsed.length_of_outcome hleft
  obtain ⟨used, rfl, hused⟩ := hoperand hleft
  obtain ⟨others, rfl, hexp⟩ :=
    (hshorter after hlength hproper.append_right).operators
      (Level.isExp_operand hused) hothers
  exact ⟨used ++ others, by simp, by simpa using hexp⟩

theorem reads_operand {level : Level}
    (heq : Parsed.outcome (operand stop level tokens) = .ok (exp, rest)) :
    Reads level.IsOperand tokens exp rest := by
  have hproduct : ∀ {exp : Exp} {rest : List Token},
      Parsed.outcome (operand stop .product tokens) = .ok (exp, rest) →
      Reads IsChain tokens exp rest := by
    intro exp rest heq
    rw [operand_product] at heq
    exact reads_chain hproper hshorter heq
  cases level with
  | product => exact hproduct heq
  | sum =>
    rw [operand_sum] at heq
    exact reads_binary_of_operand hproper hshorter hproduct heq

theorem reads_binary {level : Level}
    (heq : Parsed.outcome (binary stop level tokens) = .ok (exp, rest)) :
    Reads level.IsExp tokens exp rest :=
  reads_binary_of_operand hproper hshorter (reads_operand hproper hshorter) heq

/-- Arguments are read up to the closing parenthesis. -/
theorem reads_argumentList {context : String} {exps : List Exp}
    (heq : Parsed.outcome (argumentList stop context tokens) = .ok (exps, rest)) :
    ∃ used closing, tokens = used ++ closing :: rest ∧ closing.toLexeme.kind = .closeParen ∧
      IsArgumentList (used.map Token.toLexeme) exps := by
  rw [outcome_argumentList] at heq
  obtain ⟨⟨arg, after⟩, harg, hmark⟩ := bind_eq_ok heq
  have hlength := Parsed.length_of_outcome harg
  obtain ⟨used, rfl, hused⟩ := reads_binary hproper hshorter harg
  obtain ⟨⟨mark, afterMark⟩, hmark, hnext⟩ := bind_eq_ok hmark
  obtain ⟨rfl, hkinds⟩ := eq_cons_of_outcome_expect hmark
  dsimp only at hnext
  split at hnext
  · next hclosing =>
    cases hnext
    exact ⟨used, mark, rfl, hclosing, .last hused⟩
  · next hne =>
    have hcomma : mark.toLexeme.kind = .comma := by
      simp only [List.mem_cons, List.not_mem_nil, or_false] at hkinds
      exact hkinds.resolve_right hne
    obtain ⟨⟨args, afterArgs⟩, hargs, hlast⟩ := bind_eq_ok hnext
    cases hlast
    obtain ⟨others, closing, rfl, hclosing, hothers⟩ :=
      (hshorter afterMark (by rw [List.length_cons] at hlength; omega)
        hproper.append_right.tail).argumentList hargs
    have hlist := IsArgumentList.cons hused hcomma hothers
    exact ⟨used ++ mark :: others, closing, by simp, hclosing, by simpa using hlist⟩

end Step

/-- Whatever is read as an expression is one by the grammar.  The induction is on the
tokens that are left. -/
theorem expressionsSound (stop : Span) :
    ∀ tokens : List Token, AllProper tokens → ExpressionsSound stop tokens := by
  intro tokens
  induction hlength : tokens.length using Nat.strongRecOn generalizing tokens with
  | ind length ih =>
    intro hproper
    have hshorter : ∀ shorter : List Token, shorter.length < tokens.length →
        AllProper shorter → ExpressionsSound stop shorter := by
      intro shorter hshort
      exact ih shorter.length (hlength ▸ hshort) shorter rfl
    exact
      { binary := reads_binary hproper hshorter
        operand := reads_operand hproper hshorter
        operators := reads_operators hproper hshorter
        members := reads_members hproper hshorter
        arguments := reads_arguments hproper hshorter
        argumentList := reads_argumentList hproper hshorter }

end Parser

end ClassLang
