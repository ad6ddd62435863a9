import ClassLang.Proofs.Locality.Program
import ClassLang.Proofs.Recognition
import ClassLang.Proofs.Tiling
import ClassLang.Proofs.Viability.Program

/-!
# Syntax errors

A parser that stops at a token of the wrong kind points at that token and at no
other, because no two tokens of a source stand in the same place.  What it
expects instead can be completed to a program, and nothing behind the next token
has a part in the error.
-/

namespace ClassLang

open Grammar

/-- A program fails as its parser does on all of the tokens. -/
theorem Program.ofTokens_eq_error {tokens : List Token} {error : SourceError} :
    Program.ofTokens tokens = .error error ↔
      Parser.Parsed.outcome (Parser.program (Parser.endSpan tokens) tokens) = .error error := by
  rw [Program.ofTokens_eq]
  cases Parser.Parsed.outcome (Parser.program (Parser.endSpan tokens) tokens) with
  | error other => simp [Except.map]
  | ok read => simp [Except.map]

/-- Tokens of a source that stand in the same place are the same. -/
theorem index_eq_of_span_eq {source file : String} {tokens : List Token}
    (htokens : tokenize source file = .ok tokens) {i j : Nat} {left right : Token}
    (hleft : tokens[i]? = some left) (hright : tokens[j]? = some right)
    (hspan : left.span = right.span) : i = j := by
  obtain ⟨gaps, htiles⟩ := Cursor.tiles_of_all htokens
  have hbefore := List.pairwise_iff_getElem.mp htiles.pairwise_before
  obtain ⟨hi, rfl⟩ := List.getElem?_eq_some_iff.mp hleft
  obtain ⟨hj, rfl⟩ := List.getElem?_eq_some_iff.mp hright
  rcases Nat.lt_trichotomy i j with hlt | heq | hgt
  · exact absurd (congrArg Span.first hspan) (hbefore i j hi hj hlt).ne
  · exact heq
  · exact absurd (congrArg Span.first hspan).symm (hbefore j i hj hi hgt).ne

/-- Tokens that agree up to the one behind the given token. -/
theorem exists_append_of_agrees {used after others : List Token} {token : Token}
    (hagrees : ∀ j ≤ used.length + 1, ∀ other, (used ++ token :: after)[j]? = some other →
      others[j]? = some other) :
    ∃ rest, others = used ++ token :: rest ∧ ∀ next ∈ after.head?, rest.head? = some next := by
  induction used generalizing others with
  | nil =>
    have hfirst := hagrees 0 (Nat.zero_le _) token rfl
    obtain ⟨rest, rfl⟩ := List.head?_eq_some_iff.mp (List.head?_eq_getElem?.trans hfirst)
    refine ⟨rest, rfl, ?_⟩
    intro next hnext
    have hsecond := hagrees 1 (Nat.le_refl _) next (List.head?_eq_getElem?.symm.trans hnext)
    exact List.head?_eq_getElem?.trans hsecond
  | cons first used ih =>
    have hfirst := hagrees 0 (Nat.zero_le _) first rfl
    obtain ⟨others, rfl⟩ := List.head?_eq_some_iff.mp (List.head?_eq_getElem?.trans hfirst)
    obtain ⟨rest, rfl, hrest⟩ := ih fun j hj => hagrees (j + 1) (Nat.succ_le_succ hj)
    exact ⟨rest, rfl, hrest⟩

/-- Where the first token is the same and the second one, if there is one, the
parser sees no difference. -/
theorem Parser.sameFront_cons {token : Token} {after rest : List Token}
    (hnext : ∀ next ∈ after.head?, rest.head? = some next)
    (hlast : after = [] → token.kind = .eof) : SameFront (token :: after) (token :: rest) := by
  refine ⟨rfl, ?_, fun _ => rfl⟩
  cases after with
  | nil =>
    simp [startsDeclaration, hlast rfl]
  | cons next after =>
    obtain ⟨others, rfl⟩ := List.head?_eq_some_iff.mp (hnext next rfl)
    rfl

/-! ## Completed programs -/

/-- A token of the given kind. -/
def Token.sample (kind : Kind) : Token :=
  Cursor.tokenAt default (Lexeme.sample kind)

theorem Token.toLexeme_sample (kind : Kind) : (sample kind).toLexeme = Lexeme.sample kind :=
  Cursor.toLexeme_tokenAt default (Lexeme.sample kind)

section Completed

variable {used : List Token} {kind : Kind} (hproper : AllProper used)
  (hcompletes : Completes IsProgram (used.map Token.toLexeme ++ [Lexeme.sample kind]))

include hproper hcompletes

/-- Tokens that can be completed to a program are read as one. -/
theorem exists_program_of_completes :
    ∃ (more : List Kind) (program : Program), ∀ stop : Span,
      Parser.Parsed.outcome
        (Parser.program stop (used ++ Token.sample kind :: more.map Token.sample)) =
        .ok (program, []) := by
  obtain ⟨more, program, hprogram⟩ := hcompletes
  refine ⟨more, program, fun stop => ?_⟩
  have hlexemes : (used ++ (kind :: more).map Token.sample).map Token.toLexeme =
      used.map Token.toLexeme ++ [Lexeme.sample kind] ++ more.map Lexeme.sample := by
    simp [Token.toLexeme_sample, Function.comp_def]
  have hall : AllProper (used ++ (kind :: more).map Token.sample) := by
    intro token hmem
    rcases List.mem_append.mp hmem with hused | hsample
    · exact hproper token hused
    · obtain ⟨other, -, rfl⟩ := List.mem_map.mp hsample
      rw [Token.toLexeme_sample]
      exact Lexeme.proper_sample other
  have hparses : Parser.Parsed.outcome
      (Parser.program stop (used ++ (kind :: more).map Token.sample ++ [])) = .ok (program, []) :=
    Parser.program_parses hprogram hlexemes hall rfl
  rwa [List.append_nil] at hparses

/-- No end token stands in the middle of a program. -/
theorem kind_ne_eof_of_completes : ∀ token ∈ used, token.kind ≠ .eof := by
  obtain ⟨more, program, hprogram⟩ := exists_program_of_completes hproper hcompletes
  obtain ⟨read, hsplit, hread, -⟩ := Parser.local_program.success (hprogram default)
  rw [List.append_nil] at hsplit
  subst hsplit
  exact fun token hmem => hread token (List.mem_append_left _ hmem)

end Completed

/-! ## The faulty token -/

theorem exists_cons_of_kind_ne_eof {body used rest : List Token} {stop : Token}
    (hstop : stop.kind = .eof) (hsplit : body ++ [stop] = used ++ rest)
    (hused : ∀ token ∈ used, token.kind ≠ .eof) :
    ∃ token after, rest = token :: after ∧ (after = [] → token.kind = .eof) := by
  cases rest with
  | nil =>
    rw [List.append_nil] at hsplit
    subst hsplit
    exact absurd hstop (hused stop (by simp))
  | cons token after =>
    refine ⟨token, after, rfl, ?_⟩
    rintro rfl
    obtain ⟨-, hlast⟩ := List.append_inj' hsplit rfl
    cases hlast
    exact hstop

/-- A parser that meets a token of an unexpected kind reports the one token that
stands in the reported place.  Each of the expected kinds can come there in a
program, the kind of the token is none of them, and the error is the same
whatever follows behind the next token. -/
theorem unexpected_kind_at_token {source file : String} {tokens : List Token}
    (htokens : tokenize source file = .ok tokens) {expected : List Kind} {got : Kind}
    {context : String} {span : Span}
    (herror : Program.ofTokens tokens = .error (.unexpectedKind expected got context span)) :
    ∃ i token, tokens[i]? = some token ∧ token.span = span ∧
      (∀ j other, tokens[j]? = some other → other.span = span → j = i) ∧
      token.kind = got ∧ got ∉ expected ∧
      (∀ kind ∈ expected, ∃ next rest program, next.kind = kind ∧
        Program.ofTokens (tokens.take i ++ next :: rest) = .ok program) ∧
      ∀ others : List Token,
        (∀ j ≤ i + 1, ∀ other, tokens[j]? = some other → others[j]? = some other) →
        Program.ofTokens others = .error (.unexpectedKind expected got context span) := by
  obtain ⟨lexemes, hscans, henclose⟩ := scans_of_tokenize htokens
  have hproper := henclose.allProper hscans.proper
  obtain ⟨body, stop, hbody, hstop, -⟩ := henclose
  have houtcome := Program.ofTokens_eq_error.mp herror
  obtain ⟨used, rest, hused, hspan, hgot, hnot, hkinds, hviable⟩ :=
    Parser.blocked_program hproper houtcome _ _ _ _ rfl
  obtain ⟨read, left, hread, hreadEnd, hplace, hsame⟩ := Parser.local_program.failure houtcome
  have hproperUsed : AllProper used := (hused ▸ hproper).append_left
  have husedEnd : ∀ token ∈ used, token.kind ≠ .eof := by
    obtain ⟨kind, hkind⟩ := List.exists_mem_of_ne_nil _ hkinds
    exact kind_ne_eof_of_completes hproperUsed (hviable kind hkind)
  obtain ⟨token, after, rfl, hlast⟩ :=
    exists_cons_of_kind_ne_eof hstop (hbody.symm.trans hused) husedEnd
  obtain ⟨other, behind, rfl, -⟩ :=
    exists_cons_of_kind_ne_eof hstop (hbody.symm.trans hread) hreadEnd
  -- Both splits are made at the token in the reported place.
  have htoken : tokens[used.length]? = some token := by simp [hused]
  have hother : tokens[read.length]? = some other := by simp [hread]
  have hindex := index_eq_of_span_eq htokens htoken hother (hspan.symm.trans hplace)
  obtain ⟨rfl, hrest⟩ := List.append_inj (hused.symm.trans hread) hindex
  obtain ⟨rfl, rfl⟩ := List.cons.inj hrest
  refine ⟨used.length, token, htoken, hspan.symm, ?_, hgot.symm, hnot, ?_, ?_⟩
  · intro j other hj hother
    exact index_eq_of_span_eq htokens hj htoken (hother.trans hspan)
  · intro kind hkind
    obtain ⟨more, program, hprogram⟩ := exists_program_of_completes hproperUsed (hviable kind hkind)
    refine ⟨Token.sample kind, more.map Token.sample, program, rfl, ?_⟩
    rw [hused, List.take_left]
    exact Program.ofTokens_eq_ok.mpr ⟨[], hprogram _⟩
  · intro others hagrees
    rw [hused] at hagrees
    obtain ⟨rest, rfl, hnext⟩ := exists_append_of_agrees hagrees
    rw [Program.ofTokens_eq_error, hsame _ (.refl used) (Parser.sameFront_cons hnext hlast), hspan]
    rfl

/-- A field needs a type, so a name with a semicolon behind it stands where the
constructor should. -/
theorem unexpected_kind_at_constructor :
    ∃ tokens, tokenize "class A \x7b x; \x7d" "demo" = .ok tokens ∧
      Program.ofTokens tokens = .error (.unexpectedKind [.initWord] .ident "constructor"
        (Span.single ⟨"demo", 1, 11⟩)) ∧
      ∃ i token, tokens[i]? = some token ∧ token.kind = .ident ∧
        ∃ next rest program, next.kind = .initWord ∧
          Program.ofTokens (tokens.take i ++ next :: rest) = .ok program := by
  obtain ⟨tokens, htiles, herror⟩ : ∃ tokens,
      Tiles (Position.start "demo") "class A \x7b x; \x7d".toList
        [[], [' '], [' '], [' '], [], [' '], []] tokens ∧
      Program.ofTokens tokens = .error (.unexpectedKind [.initWord] .ident "constructor"
        (Span.single ⟨"demo", 1, 11⟩)) := by
    refine ⟨_, @Tiles.token _ [] _ ⟨.classWord, "class".toList⟩ _ _ rfl rfl
      (@Tiles.token _ [' '] _ ⟨.ident, ['A']⟩ _ _ rfl rfl
        (@Tiles.token _ [' '] _ ⟨.openBrace, ['\x7b']⟩ _ _ rfl rfl
          (@Tiles.token _ [' '] _ ⟨.ident, ['x']⟩ _ _ rfl rfl
            (@Tiles.token _ [] _ ⟨.semicolon, [';']⟩ _ _ rfl rfl
              (@Tiles.token _ [' '] _ ⟨.closeBrace, ['\x7d']⟩ _ _ rfl rfl (.stop rfl)))))), ?_⟩
    rw [Program.ofTokens_eq_error]
    cbv
  have htokens : tokenize "class A \x7b x; \x7d" "demo" = .ok tokens := Cursor.all_of_tiles htiles
  obtain ⟨i, token, htoken, -, -, hkind, -, hviable, -⟩ := unexpected_kind_at_token htokens herror
  exact ⟨tokens, htokens, herror, i, token, htoken, hkind, hviable .initWord List.mem_cons_self⟩

end ClassLang
