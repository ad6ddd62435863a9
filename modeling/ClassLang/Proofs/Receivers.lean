import ClassLang.Proofs.ScriptReading
import Mathlib.Data.List.DropRight
import Mathlib.Data.List.TakeWhile

/-!
# Members of numbers

A number in a script must not be followed directly by a period, which would be
taken for a part of the number.  A receiver gets parentheses only when it is
arithmetic, so an integer from which a member is selected does stand directly
before the period.  There is no other way in which a script comes to have such a
number.
-/

namespace ClassLang

open Grammar

namespace Text

/-- Whether the word at the end of a text is a number.  The digits of a name are
none. -/
def endsInNumber (text : List Char) : Bool :=
  let word := text.rtakeWhile Lexeme.continuesName
  !word.isEmpty && word.all isAsciiDigit

/-- Somewhere in the text a number is directly followed by a period. -/
def HasPointedNumber (text : List Char) : Prop :=
  ∃ before after, text = before ++ '.' :: after ∧ endsInNumber before = true

/-! ## Texts put together

A character that no word has keeps the numbers on its two sides apart. -/

variable {c : Char} {before after text : List Char}

/-- Only the last word counts for how a text ends. -/
theorem endsInNumber_append_cons (hc : Lexeme.continuesName c = false) :
    endsInNumber (before ++ c :: after) = endsInNumber after := by
  have hword : (before ++ c :: after).rtakeWhile Lexeme.continuesName =
      after.rtakeWhile Lexeme.continuesName := by
    rw [List.rtakeWhile, List.reverse_append, List.reverse_cons, List.append_assoc,
      List.takeWhile_append]
    split
    · next hall =>
      rw [List.singleton_append, List.takeWhile_cons_of_neg (by simp [hc]), List.append_nil,
        List.rtakeWhile, (List.takeWhile_prefix _).eq_of_length hall]
    · rfl
  rw [endsInNumber, hword, endsInNumber]

theorem endsInNumber_of_all (hword : text.all Lexeme.continuesName = true) :
    endsInNumber text = (!text.isEmpty && text.all isAsciiDigit) := by
  rw [endsInNumber, List.rtakeWhile_eq_self_iff.mpr (List.all_eq_true.mp hword)]

theorem not_hasPointedNumber (hpoint : '.' ∉ text) : ¬HasPointedNumber text := by
  rintro ⟨before, after, rfl, -⟩
  simp at hpoint

/-- A point after a number is on one side of a mark or is the mark itself. -/
theorem hasPointedNumber_append_cons (hc : Lexeme.continuesName c = false) :
    HasPointedNumber (before ++ c :: after) ↔
      HasPointedNumber before ∨ (c = '.' ∧ endsInNumber before = true) ∨
        HasPointedNumber after := by
  constructor
  · rintro ⟨front, back, heq, hends⟩
    rcases List.append_eq_append_iff.mp heq with ⟨between, rfl, hafter⟩ | ⟨between, rfl, hback⟩
    · cases between with
      | nil =>
        rw [List.nil_append, List.cons.injEq] at hafter
        rw [List.append_nil] at hends
        exact .inr (.inl ⟨hafter.1, hends⟩)
      | cons d between =>
        rw [List.cons_append, List.cons.injEq] at hafter
        obtain ⟨rfl, rfl⟩ := hafter
        rw [endsInNumber_append_cons hc] at hends
        exact .inr (.inr ⟨between, back, rfl, hends⟩)
    · cases between with
      | nil =>
        rw [List.nil_append, List.cons.injEq] at hback
        rw [List.append_nil]
        exact .inr (.inl ⟨hback.1.symm, hends⟩)
      | cons d between =>
        rw [List.cons_append, List.cons.injEq] at hback
        obtain ⟨rfl, -⟩ := hback
        exact .inl ⟨front, between, rfl, hends⟩
  · rintro (⟨front, back, rfl, hends⟩ | ⟨rfl, hends⟩ | ⟨front, back, rfl, hends⟩)
    · exact ⟨front, back ++ c :: after, by simp, hends⟩
    · exact ⟨before, after, rfl, hends⟩
    · refine ⟨before ++ c :: front, back, by simp, ?_⟩
      rw [endsInNumber_append_cons hc]
      exact hends

/-- Characters that neither a word nor a member access has. -/
theorem hasPointedNumber_append_mark (hc : c ∈ [' ', '(', ')', ',', '+', '-', '*', '/']) :
    HasPointedNumber (before ++ c :: after) ↔
      HasPointedNumber before ∨ HasPointedNumber after := by
  have hmarks : [' ', '(', ')', ',', '+', '-', '*', '/'].all fun mark =>
      !Lexeme.continuesName mark && mark != '.' := by decide
  have hmark := List.all_eq_true.mp hmarks c hc
  rw [Bool.and_eq_true, Bool.not_eq_true', bne_iff_ne] at hmark
  obtain ⟨hword, hpoint⟩ := hmark
  simp [hasPointedNumber_append_cons hword, hpoint]

/-- Parentheses keep what they enclose apart from what stands before them. -/
theorem hasPointedNumber_enclosed (front inner : String) :
    HasPointedNumber (front ++ "(" ++ inner ++ ")").toList ↔
      HasPointedNumber front.toList ∨ HasPointedNumber inner.toList := by
  have hnil : ¬HasPointedNumber [] := not_hasPointedNumber List.not_mem_nil
  have htext : (front ++ "(" ++ inner ++ ")").toList =
      front.toList ++ '(' :: (inner.toList ++ ')' :: []) := by simp
  rw [htext, hasPointedNumber_append_mark (by decide), hasPointedNumber_append_mark (by decide)]
  simp [hnil]

theorem not_endsInNumber_enclosed (front inner : String) :
    endsInNumber (front ++ "(" ++ inner ++ ")").toList = false := by
  have htext : (front ++ "(" ++ inner ++ ")").toList =
      (front.toList ++ '(' :: inner.toList) ++ ')' :: [] := by simp
  rw [htext, endsInNumber_append_cons (by decide)]
  rfl

theorem not_endsInNumber_parenthesized (script : String) :
    endsInNumber (parenthesized script).toList = false := by
  have htext : parenthesized script = "" ++ "(" ++ script ++ ")" := by simp [parenthesized]
  rw [htext, not_endsInNumber_enclosed]

theorem hasPointedNumber_parenthesized (script : String) :
    HasPointedNumber (parenthesized script).toList ↔ HasPointedNumber script.toList := by
  have hnil : ¬HasPointedNumber [] := not_hasPointedNumber List.not_mem_nil
  have htext : parenthesized script = "" ++ "(" ++ script ++ ")" := by simp [parenthesized]
  rw [htext, hasPointedNumber_enclosed]
  exact or_iff_right hnil

/-- Arguments are kept apart by their commas. -/
theorem hasPointedNumber_commaSeparated (texts : List String) :
    HasPointedNumber (commaSeparated texts).toList ↔
      ∃ text ∈ texts, HasPointedNumber text.toList := by
  have hnil : ¬HasPointedNumber [] := not_hasPointedNumber List.not_mem_nil
  induction texts with
  | nil => simpa [commaSeparated] using hnil
  | cons first texts ih =>
    cases texts with
    | nil => simp [commaSeparated]
    | cons second texts =>
      have htext : (commaSeparated (first :: second :: texts)).toList =
          first.toList ++ ',' :: ([] ++ ' ' :: (commaSeparated (second :: texts)).toList) := by
        simp [commaSeparated]
      rw [htext, hasPointedNumber_append_mark (by decide),
        hasPointedNumber_append_mark (by decide)]
      simp [hnil, ih]

/-- An integer ends in a number and has no point in it. -/
theorem endsInNumber_decimal {value : Int} (hvalue : 0 ≤ value) :
    endsInNumber (decimal value).toList = true ∧ '.' ∉ (decimal value).toList := by
  obtain ⟨value, rfl⟩ := Int.eq_ofNat_of_zero_le hvalue
  have htext : (decimal value).toList = Nat.toDigits 10 value := String.toList_ofList
  have hdigits := all_isAsciiDigit_toDigits value
  have hword : (Nat.toDigits 10 value).all Lexeme.continuesName = true :=
    List.all_eq_true.mpr fun c hc => Lexeme.continuesName_of_isAsciiDigit (hdigits c hc)
  rw [htext]
  constructor
  · rw [endsInNumber_of_all hword, List.all_eq_true.mpr hdigits]
    simp
  · intro hmem
    cases hdigits '.' hmem

end Text

/-! ## Receivers -/

theorem Lexeme.not_endsInNumber_of_isName {text : String} (hname : isName text = true) :
    Text.endsInNumber text.toList = false ∧ '.' ∉ text.toList := by
  unfold isName at hname
  split at hname
  · cases hname
  · next c chars heq =>
    simp only [Bool.and_eq_true] at hname
    obtain ⟨⟨hstart, hchars⟩, -⟩ := hname
    have hword : text.toList.all continuesName = true := by
      rw [heq, List.all_cons, continuesName_of_startsName hstart, hchars, Bool.and_self]
    have hfirst : Text.isAsciiDigit c = false := by
      by_contra hdigit
      rw [Bool.not_eq_false] at hdigit
      rw [startsName_eq_false_of_isAsciiDigit hdigit] at hstart
      cases hstart
    constructor
    · rw [Text.endsInNumber_of_all hword, heq]
      simp [hfirst]
    · intro hmem
      cases List.all_eq_true.mp hword '.' hmem

def Exp.isNumber : Exp → Bool
  | .int _ => true
  | _ => false

mutual

/-- Whether a member is selected from an integer somewhere in the expression. -/
def Exp.selectsFromNumber : Exp → Bool
  | .println value => value.selectsFromNumber
  | .call callee args => callee.selectsFromNumber || Exp.anySelectsFromNumber args
  | .binary left op right =>
    (op == .member && left.isNumber) || left.selectsFromNumber || right.selectsFromNumber
  | _ => false

def Exp.anySelectsFromNumber : List Exp → Bool
  | [] => false
  | exp :: exps => exp.selectsFromNumber || Exp.anySelectsFromNumber exps

end

/-- The expression has this script, and the numbers in it are where they stand in
the tree. -/
structure Exp.HasNumbers (exp : Exp) (script : String) : Prop where
  eq : exp.script = .ok script
  pointed : Text.HasPointedNumber script.toList ↔ exp.selectsFromNumber = true
  last : Text.endsInNumber script.toList = exp.isNumber

/-- After a closing parenthesis there is no number. -/
theorem Exp.HasNumbers.of_enclosed {exp : Exp} {front inner : String}
    (heq : exp.script = .ok (front ++ "(" ++ inner ++ ")")) (hnumber : exp.isNumber = false)
    (hpointed : Text.HasPointedNumber front.toList ∨ Text.HasPointedNumber inner.toList ↔
      exp.selectsFromNumber = true) :
    exp.HasNumbers (front ++ "(" ++ inner ++ ")") where
  eq := heq
  pointed := (Text.hasPointedNumber_enclosed front inner).trans hpointed
  last := by rw [Text.not_endsInNumber_enclosed, hnumber]

/-- A single word has no point in it. -/
theorem Exp.HasNumbers.of_word {exp : Exp} {script : String} (heq : exp.script = .ok script)
    (hpoint : '.' ∉ script.toList) (hselects : exp.selectsFromNumber = false)
    (hlast : Text.endsInNumber script.toList = exp.isNumber) : exp.HasNumbers script where
  eq := heq
  pointed := by simpa [hselects] using Text.not_hasPointedNumber hpoint
  last := hlast

section Members

variable {left right : Exp} {leftScript rightScript : String}

/-- Parentheses are only put where there is no integer. -/
theorem Exp.HasNumbers.member (hleft : left.HasNumbers leftScript)
    (hright : right.HasNumbers rightScript) (hnumber : right.isNumber = false) :
    (Exp.binary left .member right).HasNumbers
      ((if left.chains then leftScript else parenthesized leftScript) ++ "." ++ rightScript) := by
  generalize hreceiver : (if left.chains then leftScript else parenthesized leftScript) = receiver
  obtain ⟨hpointed, hlast⟩ : (Text.HasPointedNumber receiver.toList ↔
      left.selectsFromNumber = true) ∧ Text.endsInNumber receiver.toList = left.isNumber := by
    cases hchains : left.chains with
    | true =>
      simp only [hchains, if_true] at hreceiver
      exact hreceiver ▸ ⟨hleft.pointed, hleft.last⟩
    | false =>
      have hleftNumber : left.isNumber = false := by
        cases left with
        | int value => cases hchains
        | _ => rfl
      simp only [hchains, Bool.false_eq_true, if_false] at hreceiver
      rw [← hreceiver, Text.hasPointedNumber_parenthesized, hleftNumber]
      exact ⟨hleft.pointed, Text.not_endsInNumber_parenthesized leftScript⟩
  have htext : (receiver ++ "." ++ rightScript).toList =
      receiver.toList ++ '.' :: rightScript.toList := by simp
  constructor
  · rw [Exp.script, hleft.eq, hright.eq, ← hreceiver]
    rfl
  · rw [htext, Text.hasPointedNumber_append_cons (by decide), hpointed, hlast, hright.pointed]
    simp [selectsFromNumber, or_assoc, or_left_comm]
  · rw [htext, Text.endsInNumber_append_cons (by decide), hright.last, hnumber]
    rfl

/-- Operands stand in parentheses, so no number of theirs comes before a point. -/
theorem Exp.HasNumbers.arithmetic {op : Op} (hop : op ∈ arithmetic)
    (hleft : left.HasNumbers leftScript) (hright : right.HasNumbers rightScript) :
    (Exp.binary left op right).HasNumbers
      (parenthesized leftScript ++ " " ++ op.source ++ " " ++ "(" ++ rightScript ++ ")") := by
  have hsign : '.' ∉ (op.source ++ " ").toList ∧ op ≠ .member := by
    cases op with
    | missing | member => exact absurd hop (by decide)
    | plus | minus | times | divide => decide
  have htext : (parenthesized leftScript ++ " " ++ op.source ++ " ").toList =
      (parenthesized leftScript).toList ++ ' ' :: (op.source ++ " ").toList := by simp
  apply HasNumbers.of_enclosed
  · rw [Exp.script, hleft.eq, hright.eq]
    cases op with
    | missing | member => exact absurd hop (by decide)
    | plus | minus | times | divide =>
      exact congrArg Except.ok (by simp only [parenthesized, String.append_assoc])
  · rfl
  · rw [htext, Text.hasPointedNumber_append_mark (by decide), Text.hasPointedNumber_parenthesized,
      or_iff_left (Text.not_hasPointedNumber hsign.1), hleft.pointed, hright.pointed]
    simp [selectsFromNumber, hsign.2]

end Members

mutual

/-- The script of an expression has a point after a number exactly where the tree selects
from one. -/
theorem Exp.exists_hasNumbers :
    ∀ exp : Exp, exp.isWellFormed = true → ∃ script, exp.HasNumbers script
  | .missing, hwell => by cases hwell
  | .int value, hwell => by
    simp only [Exp.isWellFormed, Bool.and_eq_true, decide_eq_true_eq] at hwell
    obtain ⟨hlast, hpoint⟩ := Text.endsInNumber_decimal hwell.1
    exact ⟨_, .of_word rfl hpoint rfl hlast⟩
  | .bool value, _ => by
    refine ⟨_, .of_word rfl ?_ rfl ?_⟩ <;> cases value <;> decide
  | .this, _ => ⟨_, .of_word rfl (by decide) rfl (by decide)⟩
  | .name text, hwell => by
    obtain ⟨hlast, hpoint⟩ := Lexeme.not_endsInNumber_of_isName hwell
    exact ⟨_, .of_word rfl hpoint rfl hlast⟩
  | .println value, hwell => by
    obtain ⟨script, hvalue⟩ := value.exists_hasNumbers hwell
    have hlog : ¬Text.HasPointedNumber "console.log".toList := by
      have htext : "console.log".toList = "console".toList ++ '.' :: "log".toList := rfl
      have hconsole := Text.not_hasPointedNumber (by decide : '.' ∉ "console".toList)
      have hname := Text.not_hasPointedNumber (by decide : '.' ∉ "log".toList)
      rw [htext, Text.hasPointedNumber_append_cons (by decide)]
      rintro (hpointed | ⟨-, hnumber⟩ | hpointed)
      · exact hconsole hpointed
      · cases hnumber
      · exact hname hpointed
    refine ⟨"console.log" ++ "(" ++ script ++ ")", .of_enclosed ?_ rfl ?_⟩
    · rw [Exp.script, hvalue.eq]
      rfl
    · rw [or_iff_right hlog, hvalue.pointed, selectsFromNumber]
  | .new className, hwell => by
    obtain ⟨-, hpoint⟩ := Lexeme.not_endsInNumber_of_isName hwell
    have hfront : ¬Text.HasPointedNumber ("new " ++ className).toList :=
      Text.not_hasPointedNumber (by simpa using hpoint)
    have hinner : ¬Text.HasPointedNumber "".toList := Text.not_hasPointedNumber (by decide)
    refine ⟨"new " ++ className ++ "(" ++ "" ++ ")", .of_enclosed ?_ rfl ?_⟩
    · simp [Exp.script, String.append_assoc]
    · rw [or_iff_right hfront]
      exact iff_of_false hinner (by simp [selectsFromNumber])
  | .call _ _, hwell => by cases hwell
  | .binary left op right, hwell => by
    by_cases hmember : op = .member
    · subst hmember
      rw [Exp.isWellFormed_member, Bool.and_eq_true] at hwell
      obtain ⟨leftScript, hleft⟩ := left.exists_hasNumbers hwell.1
      obtain ⟨rightScript, hright, hnumber⟩ := right.exists_hasNumbers_of_isMember hwell.2
      exact ⟨_, hleft.member hright hnumber⟩
    · have hop := Exp.mem_arithmetic_of_isWellFormed hmember hwell
      rw [Exp.isWellFormed_arithmetic hop, Bool.and_eq_true] at hwell
      obtain ⟨leftScript, hleft⟩ := left.exists_hasNumbers hwell.1
      obtain ⟨rightScript, hright⟩ := right.exists_hasNumbers hwell.2
      exact ⟨_, hleft.arithmetic hop hright⟩

theorem Exp.exists_hasNumbers_of_isMember :
    ∀ exp : Exp, exp.isMember = true → ∃ script, exp.HasNumbers script ∧ exp.isNumber = false
  | .name text, hmember => by
    obtain ⟨hlast, hpoint⟩ := Lexeme.not_endsInNumber_of_isName hmember
    exact ⟨_, .of_word rfl hpoint rfl hlast, rfl⟩
  | .call (.name text) args, hmember => by
    rw [Exp.isMember, Bool.and_eq_true] at hmember
    obtain ⟨-, hpoint⟩ := Lexeme.not_endsInNumber_of_isName hmember.1
    obtain ⟨scripts, heq, hargs⟩ := Exp.exists_allHaveNumbers args hmember.2
    refine ⟨text ++ "(" ++ Text.commaSeparated scripts ++ ")", .of_enclosed ?_ rfl ?_, rfl⟩
    · rw [Exp.script, Exp.script, heq]
      rfl
    · rw [Text.hasPointedNumber_commaSeparated, hargs]
      simp [selectsFromNumber, Text.not_hasPointedNumber hpoint]

theorem Exp.exists_allHaveNumbers : ∀ exps : List Exp, Exp.allWellFormed exps = true →
    ∃ scripts, Exp.scripts exps = .ok scripts ∧
      ((∃ script ∈ scripts, Text.HasPointedNumber script.toList) ↔
        Exp.anySelectsFromNumber exps = true)
  | [], _ => ⟨[], rfl, by simp [anySelectsFromNumber]⟩
  | exp :: exps, hwell => by
    rw [Exp.allWellFormed, Bool.and_eq_true] at hwell
    obtain ⟨script, hexp⟩ := exp.exists_hasNumbers hwell.1
    obtain ⟨scripts, heq, hothers⟩ := Exp.exists_allHaveNumbers exps hwell.2
    refine ⟨script :: scripts, ?_, ?_⟩
    · rw [Exp.scripts, hexp.eq, heq]
      rfl
    · simp [anySelectsFromNumber, hexp.pointed, hothers]

end

/-! ## Expressions that were read -/

/-- Expressions that are read are well-formed. -/
theorem Exp.isWellFormed_of_expressionAt {source file : String} {tokens : List Token}
    {place next : Nat} {exp : Exp} (htokens : tokenize source file = .ok tokens)
    (hread : Parser.expressionAt tokens.toArray place = .ok (exp, next)) :
    exp.isWellFormed = true := by
  have hproper := allProper_drop_of_tokenize htokens place
  rw [Parser.expressionAt_eq] at hread
  obtain ⟨rest, houtcome, -⟩ := Parser.readAt_eq_ok.mp hread
  obtain ⟨used, hsplit, hexp⟩ := (Parser.expressionsSound _ _ hproper).binary houtcome
  rw [hsplit] at hproper
  exact IsSum.isWellFormed hexp (List.forall_mem_map.mpr hproper.append_left)

theorem Exp.exists_expressionAt_of_written {text : String} {exp : Exp}
    (hwritten : Written IsSum text exp) (file : String) :
    ∃ tokens next, tokenize text file = .ok tokens ∧
      Parser.expressionAt tokens.toArray 0 = .ok (exp, next) := by
  obtain ⟨lexemes, hspells, hexp⟩ := hwritten
  obtain ⟨tokens, htokens, body, stop, rfl, hstop, hbody⟩ := tokenize_of_scans hspells.scans file
  have hpeek : Parser.peek [stop] ∉ Parser.Level.sum.extensions := by
    rw [Parser.peek, hstop]
    decide
  refine ⟨_, body.length, htokens, ?_⟩
  rw [Parser.expressionAt_eq]
  refine Parser.readAt_eq_ok.mpr ⟨[stop], ?_, by simp⟩
  exact (Parser.sum_parses _ hexp).whole hbody hpeek

/-- The script of an expression has a number directly before a period exactly if a
member is selected from an integer in the expression.  Of the scripts that can
stand as a receiver, it is only that of an integer that ends in a number. -/
theorem pointed_number_iff_selects_from_number {source file : String} {tokens : List Token}
    {place next : Nat} {exp : Exp} (htokens : tokenize source file = .ok tokens)
    (hread : Parser.expressionAt tokens.toArray place = .ok (exp, next)) :
    ∃ script, exp.script = .ok script ∧
      (Text.HasPointedNumber script.toList ↔ exp.selectsFromNumber = true) ∧
      (Text.endsInNumber script.toList = true ↔ ∃ value, exp = .int value) := by
  obtain ⟨script, hexp⟩ := exp.exists_hasNumbers (Exp.isWellFormed_of_expressionAt htokens hread)
  refine ⟨script, hexp.eq, hexp.pointed, ?_⟩
  rw [hexp.last]
  cases exp <;> simp [Exp.isNumber]

/-- The name `a1` ends in a digit and is no number, and the sum gets parentheses,
but the argument `2.b` has a number before a period. -/
theorem pointed_number_iff_selects_from_number_argument :
    ∃ tokens next exp, exp = Exp.binary (.binary (.int 1) .plus (.int 2)) .member
        (.call (.name "a1") [.binary (.int 2) .member (.name "b")]) ∧
      tokenize "(1 + 2).a1(2.b)" "file" = .ok tokens ∧
      Parser.expressionAt tokens.toArray 0 = .ok (exp, next) ∧
      exp.script = .ok "((1) + (2)).a1(2.b)" ∧
      Text.HasPointedNumber "((1) + (2)).a1(2.b)".toList := by
  obtain ⟨tokens, next, htokens, hread⟩ := Exp.exists_expressionAt_of_written
    (Exp.written_source (.binary (.binary (.int 1) .plus (.int 2)) .member
      (.call (.name "a1") [.binary (.int 2) .member (.name "b")])) (by decide)).sum "file"
  obtain ⟨script, hscript, hpointed, -⟩ := pointed_number_iff_selects_from_number htokens hread
  have htext : "((1) + (2)).a1(2.b)" = script := Except.ok.inj hscript
  refine ⟨tokens, next, _, rfl, htokens, hread, rfl, ?_⟩
  rw [htext]
  exact hpointed.mpr (by decide)

/-- In the script of `5.a` the period follows the number directly. -/
theorem number_before_member_period :
    ∃ tokens next exp script, tokenize "5.a" "file" = .ok tokens ∧
      Parser.expressionAt tokens.toArray 0 = .ok (exp, next) ∧
      exp.script = .ok script ∧ script = "5.a" ∧ Text.HasPointedNumber script.toList := by
  obtain ⟨tokens, next, htokens, hread⟩ := Exp.exists_expressionAt_of_written
    (Exp.written_source (.binary (.int 5) .member (.name "a")) (by decide)).sum "file"
  exact ⟨tokens, next, _, "5.a", htokens, hread, rfl, rfl, ['5'], ['a'], rfl, rfl⟩

end ClassLang
