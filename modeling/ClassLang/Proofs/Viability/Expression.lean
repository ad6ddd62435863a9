import ClassLang.Proofs.Viability.Expectation

/-!
# What can come next in an expression

A loop that fails is told which tokens make up the expression to its left, so
that the fault is placed in the whole expression.
-/

namespace ClassLang

open Grammar
open Lexeme (sample kind_sample)

namespace Grammar

theorem isPrimary_sample : IsPrimary [sample .ident] (.name (sample .ident).text) :=
  .name (kind_sample _)

theorem isSum_sample : IsSum [sample .ident] (.name (sample .ident).text) :=
  .product (.chain (.primary isPrimary_sample))

/-- Every kind that an expression may start with does start one. -/
theorem viable_primaryKinds : Viable IsPrimary [] Parser.primaryKinds := by
  intro kind hkind
  simp only [Parser.primaryKinds, List.mem_cons, List.not_mem_nil, or_false] at hkind
  rcases hkind with rfl | rfl | rfl | rfl | rfl | rfl | rfl | rfl
  · have hzero : Text.readNat? (sample .int).chars = some 0 := by decide
    exact .intro (.int (kind_sample _) hzero (by decide)) [] rfl
  · exact .intro (.trueWord (kind_sample _)) [] rfl
  · exact .intro (.falseWord (kind_sample _)) [] rfl
  · exact .intro (.this (kind_sample _)) [] rfl
  · exact .intro isPrimary_sample [] rfl
  · exact .intro (.new (kind_sample _) (kind_sample _) (kind_sample _) (kind_sample _))
      [.ident, .openParen, .closeParen] rfl
  · exact .intro (.parenthesized (kind_sample _) isSum_sample (kind_sample _))
      [.ident, .closeParen] rfl
  · exact .intro (.println (kind_sample _) (kind_sample _) isSum_sample (kind_sample _))
      [.openParen, .ident, .closeParen] rfl

end Grammar

namespace Parser

/-- The parsers of expressions expect what can come next. -/
structure ExpressionsBlocked (stop : Span) (tokens : List Token) : Prop where
  binary : ∀ {level : Level} {error : SourceError},
    Parsed.outcome (binary stop level tokens) = .error error →
    Blocked stop level.IsExp tokens error
  operand : ∀ {level : Level} {error : SourceError},
    Parsed.outcome (operand stop level tokens) = .error error →
    Blocked stop level.IsOperand tokens error
  operators : ∀ {level : Level} {left : Exp} {error : SourceError} (before : List Token),
    level.IsExp (before.map Token.toLexeme) left →
    Continued.outcome (operators stop level left tokens) = .error error →
    Blocked stop level.IsExp (before ++ tokens) error
  members : ∀ {receiver : Exp} {error : SourceError} (before : List Token),
    IsChain (before.map Token.toLexeme) receiver →
    Continued.outcome (members stop receiver tokens) = .error error →
    Blocked stop IsChain (before ++ tokens) error
  arguments : ∀ {context : String} {error : SourceError},
    Parsed.outcome (arguments stop context tokens) = .error error →
    Blocked stop IsArguments tokens error
  argumentList : ∀ {context : String} {error : SourceError},
    Parsed.outcome (argumentList stop context tokens) = .error error →
    Blocked stop (IsClosed .closeParen IsArgumentList) tokens error

section Step

variable {stop : Span} {tokens : List Token} {error : SourceError}
variable (hproper : AllProper tokens)
variable (hshorter : ∀ shorter, shorter.length < tokens.length → AllProper shorter →
  ExpressionsBlocked stop shorter)

include hproper hshorter

/-- The loop over operators is blocked in an operand, with all that was read before it. -/
theorem blocked_operators {level : Level} {left : Exp} (before : List Token)
    (hleft : level.IsExp (before.map Token.toLexeme) left)
    (heq : Continued.outcome (operators stop level left tokens) = .error error) :
    Blocked stop level.IsExp (before ++ tokens) error := by
  rw [outcome_operators] at heq
  cases hop : level.op? (peek tokens) with
  | none =>
    rw [hop] at heq
    cases heq
  | some op =>
    rw [hop] at heq
    cases tokens with
    | nil => cases level <;> cases hop
    | cons sign after =>
      have hsign : level.op? sign.toLexeme.kind = some op := hop
      rw [List.tail_cons] at heq
      have hafter := hshorter after (Nat.lt_succ_self _) hproper.tail
      rcases bind_eq_error heq with hright | ⟨⟨right, afterRight⟩, hright, hothers⟩
      · refine (hafter.operand hright).within (before ++ [sign]) (by simp) fun hright => ?_
        exact .intro (Level.isExp_operator hleft hsign hright) [] (by simp)
      · have hlength := Parsed.length_of_outcome hright
        obtain ⟨used, rfl, hused⟩ := (expressionsSound stop after hproper.tail).operand hright
        have hbinary := Level.isExp_operator hleft hsign hused
        have hblocked := (hshorter afterRight (Nat.lt_succ_of_lt hlength)
          hproper.tail.append_right).operators (before ++ sign :: used)
          (by simpa using hbinary) hothers
        simpa using hblocked

theorem blocked_members {receiver : Exp} (before : List Token)
    (hreceiver : IsChain (before.map Token.toLexeme) receiver)
    (heq : Continued.outcome (members stop receiver tokens) = .error error) :
    Blocked stop IsChain (before ++ tokens) error := by
  rw [outcome_members] at heq
  by_cases hpeek : peek tokens = .period
  · rw [if_pos hpeek] at heq
    obtain ⟨period, afterPeriod, rfl, hperiod⟩ := exists_cons_of_peek hpeek (by decide)
    rw [List.tail_cons] at heq
    rcases cases_of_expect heq with hname | ⟨name, afterName, rfl, hident, hnext⟩
    · refine .of_expect_one hname (by decide) (before ++ [period]) (by simp) ?_
      exact .intro (.member hreceiver hperiod (kind_sample _)) [] (by simp)
    · have htext := Token.text_toLexeme name
      have hafter := hshorter afterName (by simp only [List.length_cons]; omega) hproper.tail.tail
      dsimp only at hnext
      split at hnext
      · rcases bind_eq_error hnext with hargs | ⟨⟨args, afterArgs⟩, hargs, hmembers⟩
        · have hblocked := hafter.arguments hargs
          refine hblocked.within (before ++ [period, name]) (by simp) fun hargs => ?_
          exact .intro (.call hreceiver hperiod hident hargs) [] (by simp)
        · have hlength := Parsed.length_of_outcome hargs
          obtain ⟨used, rfl, hused⟩ :=
            (expressionsSound stop afterName hproper.tail.tail).arguments hargs
          have hcall := IsChain.call hreceiver hperiod hident hused
          rw [htext] at hcall
          have hblocked := (hshorter afterArgs (by simp only [List.length_cons]; omega)
            hproper.tail.tail.append_right).members (before ++ period :: name :: used)
            (by simpa using hcall) hmembers
          simpa using hblocked
      · have hmember := IsChain.member hreceiver hperiod hident
        rw [htext] at hmember
        have hblocked := hafter.members (before ++ [period, name])
          (by simpa using hmember) hnext
        simpa using hblocked
  · rw [if_neg hpeek] at heq
    cases heq

theorem blocked_arguments {context : String}
    (heq : Parsed.outcome (arguments stop context tokens) = .error error) :
    Blocked stop IsArguments tokens error := by
  rw [outcome_arguments] at heq
  rcases cases_of_expect heq with hopen | ⟨opening, after, rfl, hopening, hnext⟩
  · refine .of_expect_one hopen (by decide) [] rfl ?_
    exact .intro (.none (kind_sample _) (kind_sample _)) [.closeParen] rfl
  · dsimp only at hnext
    split at hnext
    · cases hnext
    · have hafter := hshorter after (Nat.lt_succ_self _) hproper.tail
      refine (hafter.argumentList hnext).within [opening] rfl fun hlist => ?_
      obtain ⟨hargs, hclosing⟩ := hlist
      exact .intro (.some hopening hargs hclosing) [] (by simp)

theorem blocked_primary (heq : Parsed.outcome (primary stop tokens) = .error error) :
    Blocked stop IsPrimary tokens error := by
  rw [outcome_primary] at heq
  rcases bind_eq_error heq with hfirst | ⟨⟨token, after⟩, htoken, hnext⟩
  · exact .of_expect hfirst (by decide) (by decide) [] rfl viable_primaryKinds
  · obtain ⟨rfl, hkinds⟩ := eq_cons_of_outcome_expect htoken
    have hafter := hshorter after (Nat.lt_succ_self _) hproper.tail
    dsimp only at hnext
    split at hnext
    · split at hnext
      · cases hnext
      · intro kinds got context span herror
        cases hnext
        cases herror
    · cases hnext
    · cases hnext
    · cases hnext
    · next hkind =>
      have hword : token.toLexeme.kind = .newWord := hkind
      rcases cases_of_expect hnext with hname | ⟨name, _, rfl, hident, hopen⟩
      · refine .of_expect_one hname (by decide) [token] rfl ?_
        exact .intro (.new hword (kind_sample _) (kind_sample _) (kind_sample _))
          [.openParen, .closeParen] rfl
      rcases cases_of_expect hopen with hopen | ⟨opening, _, rfl, hopening, hclose⟩
      · refine .of_expect_one hopen (by decide) [token, name] rfl ?_
        exact .intro (.new hword hident (kind_sample _) (kind_sample _)) [.closeParen] rfl
      refine .of_last hclose (fun _ => ⟨_, rfl⟩) (by decide) [token, name, opening] rfl ?_
      exact .intro (.new hword hident hopening (kind_sample _)) [] rfl
    · next hkind =>
      have hopening : token.toLexeme.kind = .openParen := hkind
      rcases bind_eq_error hnext with hinner | ⟨⟨inner, _⟩, hinner, hclose⟩
      · refine (hafter.binary hinner).within [token] rfl fun hinner => ?_
        exact .intro (.parenthesized hopening hinner (kind_sample _)) [.closeParen] (by simp)
      obtain ⟨used, rfl, hused⟩ := (expressionsSound stop after hproper.tail).binary hinner
      refine .of_last hclose (fun _ => ⟨_, rfl⟩) (by decide) (token :: used) rfl ?_
      exact .intro (.parenthesized hopening hused (kind_sample _)) [] (by simp)
    · next hkind =>
      have hword : token.toLexeme.kind = .printlnWord := hkind
      rcases cases_of_expect hnext with hopen | ⟨opening, afterOpen, rfl, hopening, hrest⟩
      · refine .of_expect_one hopen (by decide) [token] rfl ?_
        exact .intro (.println hword (kind_sample _) isSum_sample (kind_sample _))
          [.ident, .closeParen] rfl
      have hproperOpen := hproper.tail.tail
      rcases bind_eq_error hrest with hinner | ⟨⟨inner, _⟩, hinner, hclose⟩
      · have hafterOpen := hshorter afterOpen (by simp only [List.length_cons]; omega) hproperOpen
        refine (hafterOpen.binary hinner).within [token, opening] rfl fun hinner => ?_
        exact .intro (.println hword hopening hinner (kind_sample _)) [.closeParen] (by simp)
      obtain ⟨used, rfl, hused⟩ := (expressionsSound stop afterOpen hproperOpen).binary hinner
      refine .of_last hclose (fun _ => ⟨_, rfl⟩) (by decide) (token :: opening :: used) rfl ?_
      exact .intro (.println hword hopening hused (kind_sample _)) [] (by simp)
    · cases hnext

theorem blocked_chain (heq : Parsed.outcome (chain stop tokens) = .error error) :
    Blocked stop IsChain tokens error := by
  rw [outcome_chain] at heq
  rcases bind_eq_error heq with hreceiver | ⟨⟨receiver, after⟩, hreceiver, hmembers⟩
  · refine (blocked_primary hproper hshorter hreceiver).within [] rfl fun hexp => ?_
    exact .intro (.primary hexp) [] (by simp)
  · have hlength := Parsed.length_of_outcome hreceiver
    obtain ⟨used, rfl, hused⟩ :=
      reads_primary hproper (fun shorter _ => expressionsSound stop shorter) hreceiver
    exact (hshorter after hlength hproper.append_right).members used (.primary hused) hmembers

/-- A level of arithmetic expects what can come next when its operands do. -/
theorem blocked_binary_of_operand {level : Level}
    (hoperand : ∀ {error : SourceError},
      Parsed.outcome (operand stop level tokens) = .error error →
      Blocked stop level.IsOperand tokens error)
    (heq : Parsed.outcome (binary stop level tokens) = .error error) :
    Blocked stop level.IsExp tokens error := by
  rw [outcome_binary] at heq
  rcases bind_eq_error heq with hleft | ⟨⟨left, after⟩, hleft, hothers⟩
  · refine (hoperand hleft).within [] rfl fun hexp => ?_
    exact .intro (Level.isExp_operand hexp) [] (by simp)
  · have hlength := Parsed.length_of_outcome hleft
    obtain ⟨used, rfl, hused⟩ := (expressionsSound stop tokens hproper).operand hleft
    exact (hshorter after hlength hproper.append_right).operators used
      (Level.isExp_operand hused) hothers

theorem blocked_operand {level : Level}
    (heq : Parsed.outcome (operand stop level tokens) = .error error) :
    Blocked stop level.IsOperand tokens error := by
  have hproduct : ∀ {error : SourceError},
      Parsed.outcome (operand stop .product tokens) = .error error →
      Blocked stop IsChain tokens error := by
    intro error heq
    rw [operand_product] at heq
    exact blocked_chain hproper hshorter heq
  cases level with
  | product => exact hproduct heq
  | sum =>
    rw [operand_sum] at heq
    exact blocked_binary_of_operand hproper hshorter hproduct heq

theorem blocked_argumentList {context : String}
    (heq : Parsed.outcome (argumentList stop context tokens) = .error error) :
    Blocked stop (IsClosed .closeParen IsArgumentList) tokens error := by
  rw [outcome_argumentList] at heq
  rcases bind_eq_error heq with harg | ⟨⟨arg, after⟩, harg, hmark⟩
  · refine (blocked_binary_of_operand hproper hshorter (blocked_operand hproper hshorter)
      harg).within [] rfl fun harg => ?_
    exact .intro (.intro (.last harg) (kind_sample _)) [.closeParen] (by simp)
  have hlength := Parsed.length_of_outcome harg
  obtain ⟨used, rfl, hused⟩ := (expressionsSound stop tokens hproper).binary harg
  rcases bind_eq_error hmark with hmark | ⟨⟨mark, afterMark⟩, hmark, hnext⟩
  · refine .of_expect hmark (by decide) (by decide) used rfl ?_
    intro kind hkind
    simp only [List.mem_cons, List.not_mem_nil, or_false] at hkind
    rcases hkind with rfl | rfl
    · exact .intro (.intro (.cons hused (kind_sample _) (.last isSum_sample)) (kind_sample _))
        [.ident, .closeParen] (by simp)
    · exact .intro (.intro (.last hused) (kind_sample _)) [] (by simp)
  · obtain ⟨rfl, hkinds⟩ := eq_cons_of_outcome_expect hmark
    dsimp only at hnext
    split at hnext
    · cases hnext
    · next hne =>
      have hcomma : mark.toLexeme.kind = .comma := by
        simp only [List.mem_cons, List.not_mem_nil, or_false] at hkinds
        exact hkinds.resolve_right hne
      have hargs := eq_error_of_bind hnext fun _ => ⟨_, rfl⟩
      rw [List.length_cons] at hlength
      have hafter := hshorter afterMark (by omega) hproper.append_right.tail
      refine (hafter.argumentList hargs).within (used ++ [mark]) (by simp) fun hlist => ?_
      obtain ⟨hothers, hclosing⟩ := hlist
      exact .intro (.intro (.cons hused hcomma hothers) hclosing) [] (by simp)

end Step

/-- Where an expression is blocked, each of the expected kinds goes on with one. -/
theorem expressionsBlocked (stop : Span) :
    ∀ tokens : List Token, AllProper tokens → ExpressionsBlocked stop tokens := by
  intro tokens
  induction hlength : tokens.length using Nat.strongRecOn generalizing tokens with
  | ind length ih =>
    intro hproper
    have hshorter : ∀ shorter : List Token, shorter.length < tokens.length →
        AllProper shorter → ExpressionsBlocked stop shorter := by
      intro shorter hshort
      exact ih shorter.length (hlength ▸ hshort) shorter rfl
    exact
      { binary := blocked_binary_of_operand hproper hshorter (blocked_operand hproper hshorter)
        operand := blocked_operand hproper hshorter
        operators := blocked_operators hproper hshorter
        members := blocked_members hproper hshorter
        arguments := blocked_arguments hproper hshorter
        argumentList := blocked_argumentList hproper hshorter }

end Parser

end ClassLang
