import ClassLang.Proofs.Completeness.Program
import ClassLang.Proofs.Soundness.Program
import ClassLang.Proofs.Threading

/-!
# The parser recognises the grammar

Reading the tokens of a source succeeds with a program exactly when the tokens
write that program.  The grammar does not say how much to read; that nothing is
left over before the end token is part of what is proved here.
-/

namespace ClassLang

namespace Grammar

/-! ## Last lexemes -/

/-- The last lexeme is not an end token. -/
def EndsProperly (lexemes : List Lexeme) : Prop :=
  ∃ front last, lexemes = front ++ [last] ∧ last.kind ≠ .eof

theorem EndsProperly.append {lexemes : List Lexeme} (hends : EndsProperly lexemes)
    (before : List Lexeme) : EndsProperly (before ++ lexemes) := by
  obtain ⟨front, last, rfl, hkind⟩ := hends
  exact ⟨before ++ front, last, by simp, hkind⟩

theorem EndsProperly.of_kind {last : Lexeme} {kind : Kind} (front : List Lexeme)
    (hlast : last.kind = kind) (hkind : kind ≠ .eof) : EndsProperly (front ++ [last]) :=
  ⟨front, last, rfl, hlast ▸ hkind⟩

theorem IsStmt.ends : ∀ {lexemes : List Lexeme} {stmt : Stmt}, IsStmt lexemes stmt →
    EndsProperly lexemes
  | _, _, .declare (.intro _ hsemicolon) => .of_kind _ hsemicolon (by decide)
  | _, _, .expression _ hsemicolon => .of_kind _ hsemicolon (by decide)
  | _, _, .assign _ _ _ _ hsemicolon => .of_kind _ hsemicolon (by decide)
  | _, _, .breakLoop _ hsemicolon => .of_kind [_] hsemicolon (by decide)
  | _, _, .returnNone _ hsemicolon => .of_kind [_] hsemicolon (by decide)
  | _, _, .returnValue _ _ hsemicolon => .of_kind _ hsemicolon (by decide)
  | _, _, .block _ _ hclosing => .of_kind _ hclosing (by decide)
  | _, _, .whileLoop _ hbody => hbody.ends.append _
  | _, _, .ifThen _ hyes => hyes.ends.append _
  | _, _, .ifElse _ _ _ _ hno => (hno.ends.append [_]).append _

theorem IsStmts.ends {lexemes : List Lexeme} {stmts : List Stmt} (hstmts : IsStmts lexemes stmts)
    {before : List Lexeme} (hbefore : EndsProperly before) : EndsProperly (before ++ lexemes) := by
  induction hstmts.isSequence generalizing before with
  | nil => rwa [List.append_nil]
  | cons hstmt hothers ih =>
    rw [← List.append_assoc]
    exact ih (isStmts_of_isSequence hothers) (hstmt.ends.append before)

/-- A program does not end in an end token. -/
theorem IsProgram.ends {lexemes : List Lexeme} {program : Program}
    (hprogram : IsProgram lexemes program) : EndsProperly lexemes := by
  obtain ⟨_, hstmt, hstmts⟩ := hprogram
  exact hstmts.ends (hstmt.ends.append _)

end Grammar

open Grammar

/-! ## Whole sources -/

/-- A program is read from the front of its tokens. -/
theorem Program.ofTokens_eq (tokens : List Token) :
    Program.ofTokens tokens =
      (Parser.Parsed.outcome (Parser.program (Parser.endSpan tokens) tokens)).map Prod.fst := by
  rw [Program.ofTokens, Parser.programAt_eq]
  change Except.map Prod.fst (Except.map _ (Parser.program (Parser.endSpan tokens) tokens)) = _
  cases Parser.program (Parser.endSpan tokens) tokens with
  | error error => rfl
  | ok parsed => rfl

theorem Program.ofTokens_eq_ok {tokens : List Token} {program : Program} :
    Program.ofTokens tokens = .ok program ↔
      ∃ rest, Parser.Parsed.outcome (Parser.program (Parser.endSpan tokens) tokens) =
        .ok (program, rest) := by
  rw [Program.ofTokens_eq]
  cases Parser.Parsed.outcome (Parser.program (Parser.endSpan tokens) tokens) with
  | error error => simp [Except.map]
  | ok read =>
    obtain ⟨found, rest⟩ := read
    simp [Except.map]

theorem Token.Enclose.allProper {tokens : List Token} {lexemes : List Lexeme}
    (henclose : Token.Enclose tokens lexemes) (hproper : ∀ lexeme ∈ lexemes, lexeme.Proper) :
    AllProper tokens := by
  obtain ⟨body, stop, rfl, hstop, rfl⟩ := henclose
  intro token hmem
  rcases List.mem_append.mp hmem with hbody | hlast
  · exact hproper token.toLexeme (List.mem_map_of_mem hbody)
  · -- Nothing is asked of an end token.
    rw [List.mem_singleton.mp hlast]
    constructor
    · intro hname
      cases hstop.symm.trans hname
    · intro hint
      cases hstop.symm.trans hint

/-- Tokens of a source are proper, from any place on. -/
theorem allProper_drop_of_tokenize {source file : String} {tokens : List Token}
    (htokens : tokenize source file = .ok tokens) (place : Nat) :
    AllProper (tokens.drop place) := by
  obtain ⟨lexemes, hscans, henclose⟩ := scans_of_tokenize htokens
  intro token hmem
  exact henclose.allProper hscans.proper token (List.mem_of_mem_drop hmem)

/-- Before an end token there is only one place to stop: the tokens that were
read are all the others. -/
theorem eq_body_of_isProgram {body used rest : List Token} {stop : Token} {program : Program}
    (hbody : ∀ token ∈ body, token.kind ≠ .eof) (hstop : stop.kind = .eof)
    (hsplit : body ++ [stop] = used ++ rest) (hrest : Parser.peek rest = .eof)
    (hprogram : IsProgram (used.map Token.toLexeme) program) : used = body := by
  rcases List.append_eq_append_iff.mp hsplit with ⟨more, rfl, hmore⟩ | ⟨more, rfl, rfl⟩
  · cases more with
    | nil => exact List.append_nil body
    | cons token others =>
      -- The end token would be the last lexeme of a program.
      obtain ⟨rfl, hnil⟩ := List.cons.inj hmore
      obtain ⟨rfl, rfl⟩ := List.append_eq_nil_iff.mp hnil.symm
      obtain ⟨front, last, heq, hlast⟩ := hprogram.ends
      rw [List.map_append, List.map_singleton] at heq
      obtain ⟨-, hsame⟩ := List.append_inj' heq rfl
      obtain ⟨rfl, -⟩ := List.cons.inj hsame
      exact absurd hstop hlast
  · cases more with
    | nil => exact (List.append_nil used).symm
    | cons token others => exact absurd hrest (hbody token (by simp))

/-- The tokens of a text are read as a program exactly if its lexemes are one. -/
theorem Program.ofTokens_eq_ok_iff_isProgram {text rest : List Char} {tokens : List Token}
    {lexemes : List Lexeme} {program : Program} (hscans : Scans text lexemes rest)
    (henclose : Token.Enclose tokens lexemes) :
    Program.ofTokens tokens = .ok program ↔ IsProgram lexemes program := by
  have hproper := henclose.allProper hscans.proper
  obtain ⟨body, stop, rfl, hstop, rfl⟩ := henclose
  rw [Program.ofTokens_eq_ok]
  constructor
  · rintro ⟨rest, heq⟩
    obtain ⟨⟨used, hsplit, hprogram⟩, hrest⟩ := Parser.reads_program hproper heq
    have hbody : ∀ token ∈ body, token.kind ≠ .eof :=
      fun token hmem => (hscans.genuine _ (List.mem_map_of_mem hmem)).notEnd
    rwa [eq_body_of_isProgram hbody hstop hsplit hrest hprogram] at hprogram
  · intro hprogram
    exact ⟨[stop], Parser.program_parses hprogram rfl hproper.append_left hstop⟩

/-- A source is read as a program exactly if it can be scanned to the end as one. -/
theorem Program.ofSource_eq_ok_iff {source file : String} {program : Program} :
    Program.ofSource source file = .ok program ↔
      ∃ lexemes, Scans source.toList lexemes [] ∧ IsProgram lexemes program := by
  constructor
  · intro heq
    obtain ⟨tokens, htokens, hprogram⟩ := Parser.bind_eq_ok heq
    obtain ⟨lexemes, hscans, henclose⟩ := scans_of_tokenize htokens
    exact ⟨lexemes, hscans, (Program.ofTokens_eq_ok_iff_isProgram hscans henclose).mp hprogram⟩
  · rintro ⟨lexemes, hscans, hprogram⟩
    obtain ⟨tokens, htokens, henclose⟩ := tokenize_of_scans hscans file
    rw [Program.ofSource, htokens]
    exact (Program.ofTokens_eq_ok_iff_isProgram hscans henclose).mpr hprogram

/-- The tokens of a source end in an end token, the parser reads a program from
them exactly when the tokens before it write that program, and they write at
most one. -/
theorem parser_recognises_grammar {source file : String} {tokens : List Token}
    (htokens : tokenize source file = .ok tokens) :
    (∃ stop, tokens.getLast? = some stop ∧ stop.kind = .eof) ∧
      (∀ program, Program.ofTokens tokens = .ok program ↔
        IsProgram (tokens.dropLast.map Token.toLexeme) program) ∧
      ∀ left right, IsProgram (tokens.dropLast.map Token.toLexeme) left →
        IsProgram (tokens.dropLast.map Token.toLexeme) right → left = right := by
  obtain ⟨lexemes, hscans, henclose⟩ := scans_of_tokenize htokens
  have hiff : ∀ program, Program.ofTokens tokens = .ok program ↔ IsProgram lexemes program :=
    fun program => Program.ofTokens_eq_ok_iff_isProgram hscans henclose
  obtain ⟨body, stop, rfl, hstop, rfl⟩ := henclose
  rw [List.dropLast_concat]
  refine ⟨⟨stop, List.getLast?_concat, hstop⟩, hiff, ?_⟩
  intro left right hleft hright
  have hsame := ((hiff left).mpr hleft).symm.trans ((hiff right).mpr hright)
  exact Except.ok.inj hsame

/-- Of two open `if`s, the second one takes the `else`. -/
theorem parser_gives_else_to_nearest_if :
    ∃ tokens, tokenize "if (a) if (b) c; else d;" "demo" = .ok tokens ∧
      Program.ofTokens tokens = .ok ⟨[], [.ifThen (.name "a")
        (.ifElse (.name "b") (.expression (.name "c")) (.expression (.name "d")))]⟩ := by
  have hscans : Scans "if (a) if (b) c; else d;".toList
      [⟨.ifWord, "if".toList⟩, ⟨.openParen, ['(']⟩, ⟨.ident, ['a']⟩, ⟨.closeParen, [')']⟩,
        ⟨.ifWord, "if".toList⟩, ⟨.openParen, ['(']⟩, ⟨.ident, ['b']⟩, ⟨.closeParen, [')']⟩,
        ⟨.ident, ['c']⟩, ⟨.semicolon, [';']⟩, ⟨.elseWord, "else".toList⟩, ⟨.ident, ['d']⟩,
        ⟨.semicolon, [';']⟩] [] :=
    .lexeme rfl (.blank rfl (.lexeme rfl (.lexeme rfl (.lexeme rfl (.blank rfl (.lexeme rfl
      (.blank rfl (.lexeme rfl (.lexeme rfl (.lexeme rfl (.blank rfl (.lexeme rfl (.lexeme rfl
      (.blank rfl (.lexeme rfl (.blank rfl (.lexeme rfl (.lexeme rfl (.done _)))))))))))))))))))
  obtain ⟨tokens, htokens, henclose⟩ := tokenize_of_scans hscans "demo"
  refine ⟨tokens, htokens, ((parser_recognises_grammar htokens).2.1 _).mpr ?_⟩
  obtain ⟨body, stop, rfl, -, hbody⟩ := henclose
  rw [List.dropLast_concat, hbody]
  have hname : ∀ {name : Lexeme}, name.kind = .ident → IsSum [name] (.name name.text) :=
    fun hkind => .product (.chain (.primary (.name hkind)))
  exact .intro .nil
    (.ifThen (.intro rfl rfl (hname rfl) rfl)
      (.ifElse (.intro rfl rfl (hname rfl) rfl) (.expression (hname rfl) rfl) rfl rfl
        (.expression (hname rfl) rfl))) .nil

end ClassLang
