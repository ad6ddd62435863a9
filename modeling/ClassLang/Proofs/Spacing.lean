import ClassLang.Proofs.Tiling

/-!
# Blanks between tokens

The blanks of a source can be chosen anew without a change in its tokens, as
long as two tokens that would run into each other stay apart.  Whether two
tokens would do so depends only on their kinds.
-/

namespace ClassLang

/-- Between two tokens that would run into each other there is a blank. -/
def Separated (gaps : List (List Char)) (kinds : List Kind) : Prop :=
  ∀ (i : Nat) (left right : Kind), kinds[i]? = some left → kinds[i + 1]? = some right →
    left.Glues right → gaps[i + 1]? ≠ some []

theorem separated_singleton (gaps : List (List Char)) (kind : Kind) : Separated gaps [kind] := by
  intro i left right _ hright
  simp at hright

/-- Only kinds that would glue together need a gap between them. -/
theorem separated_cons_cons {gap next : List Char} {gaps : List (List Char)} {left right : Kind}
    {kinds : List Kind} :
    Separated (gap :: next :: gaps) (left :: right :: kinds) ↔
      (left.Glues right → next ≠ []) ∧ Separated (next :: gaps) (right :: kinds) := by
  constructor
  · intro hseparated
    refine ⟨fun hglues hnil => hseparated 0 left right rfl rfl hglues (congrArg some hnil), ?_⟩
    intro i
    exact hseparated (i + 1)
  · rintro ⟨hfirst, hothers⟩ i before after hbefore hafter hglues hnil
    cases i with
    | zero =>
      cases hbefore
      cases hafter
      exact hfirst hglues (Option.some.inj hnil)
    | succ i => exact hothers i before after hbefore hafter hglues hnil

/-- A gap ends every lexeme. -/
theorem Lexeme.ends_of_gap {gap : List Char} (hgap : gap.all Text.isBlank = true) (hne : gap ≠ [])
    (kind : Kind) (rest : List Char) : Ends kind (gap ++ rest) := by
  obtain ⟨c, others, rfl⟩ := List.exists_cons_of_ne_nil hne
  rw [List.all_cons, Bool.and_eq_true] at hgap
  intro d hd
  cases hd
  exact goesOn_eq_false_of_isBlank hgap.1 kind

theorem Kind.not_glues_eof (kind : Kind) : ¬kind.Glues .eof := by
  rintro (⟨-, hword | hint⟩ | ⟨-, hint⟩ | ⟨-, hequals | hequals⟩)
  · exact absurd hword (by decide)
  all_goals contradiction

section Tiles

variable {position : Position} {text gap : List Char} {gaps others : List (List Char)}
  {first : Token} {tokens : List Token}

/-- A lexeme ends before tokens with blanks in front of them exactly when there
is a blank in front of the first one or the lexeme does not run into it. -/
theorem Tiles.ends_spaced_iff (htiles : Tiles position text gaps (first :: tokens))
    (hgap : gap.all Text.isBlank = true) (others : List (List Char)) (kind : Kind) :
    Lexeme.Ends kind (spaced (gap :: others) ((first :: tokens).map Token.chars)) ↔
      (kind.Glues first.kind → gap ≠ []) := by
  rw [List.map_cons, spaced_cons]
  by_cases hne : gap = []
  · subst hne
    rw [List.nil_append]
    cases htiles with
    | stop =>
      have hglues := kind.not_glues_eof
      simp [Lexeme.Ends, Cursor.endToken, Token.chars, spaced, hglues]
    | @token _ _ _ lexeme _ _ _ hfound =>
      obtain ⟨c, chars, hchars⟩ := List.exists_cons_of_ne_nil (Lexeme.splits_of_next? hfound).1
      have hkind := (Lexeme.next?_eq_some_iff.mp hfound).2.1
      rw [hchars] at hkind
      have hglues : Lexeme.goesOn kind c = true ↔ kind.Glues lexeme.kind :=
        Lexeme.goesOn_first_iff hkind
      rw [Cursor.chars_tokenAt, hchars]
      change Lexeme.Ends kind (c :: _) ↔ (kind.Glues lexeme.kind → [] ≠ [])
      simp [Lexeme.Ends, ← hglues]
  · exact iff_of_true (Lexeme.ends_of_gap hgap hne kind _) fun _ => hne

theorem Tiles.exists_cons (htiles : Tiles position text gaps tokens) :
    ∃ gap others first after, gaps = gap :: others ∧ tokens = first :: after := by
  cases htiles with
  | stop => exact ⟨_, _, _, _, rfl, rfl⟩
  | token => exact ⟨_, _, _, _, rfl, rfl⟩

/-- The blanks of a source keep its tokens apart. -/
theorem Tiles.separated (htiles : Tiles position text gaps tokens) :
    Separated gaps (tokens.map Token.kind) := by
  induction htiles with
  | stop => exact separated_singleton _ _
  | @token position gap rest lexeme gaps tokens _ hfound htiles ih =>
    obtain ⟨next, others, first, after, rfl, rfl⟩ := htiles.exists_cons
    have hends := (Lexeme.next?_eq_some_iff.mp hfound).2.2
    rw [← htiles.spaced_eq] at hends
    have hnext := htiles.all_isBlank next List.mem_cons_self
    exact separated_cons_cons.mpr ⟨(htiles.ends_spaced_iff hnext others _).mp hends, ih⟩

/-- Blanks that keep the tokens of a source apart can take the place of those
that stand there. -/
theorem Tiles.exists_respaced (htiles : Tiles position text gaps tokens)
    (hlength : others.length = tokens.length)
    (hblank : ∀ gap ∈ others, gap.all Text.isBlank = true)
    (hseparated : Separated others (tokens.map Token.kind)) (start : Position) :
    ∃ respaced, Tiles start (spaced others (tokens.map Token.chars)) others respaced ∧
      respaced.map Token.toLexeme = tokens.map Token.toLexeme := by
  induction htiles generalizing others start with
  | @stop position gap _ =>
    obtain ⟨other, rfl⟩ := List.length_eq_one_iff.mp hlength
    refine ⟨[Cursor.endToken (start.advance other)], ?_, rfl⟩
    have hstop := @Tiles.stop start _ (hblank other List.mem_cons_self)
    simpa [spaced, Token.chars, Cursor.endToken] using hstop
  | @token position gap rest lexeme gaps tokens _ hfound htiles ih =>
    obtain ⟨other, others, rfl⟩ := List.exists_cons_of_length_eq_add_one hlength
    obtain ⟨_, _, first, after, -, rfl⟩ := htiles.exists_cons
    obtain ⟨next, others, rfl⟩ := List.exists_cons_of_length_eq_add_one (Nat.succ.inj hlength)
    rw [List.forall_mem_cons] at hblank
    obtain ⟨hglues, hothers⟩ := separated_cons_cons.mp hseparated
    obtain ⟨respaced, hrespaced, hlexemes⟩ :=
      ih (Nat.succ.inj hlength) hblank.2 hothers (start.advance (other ++ lexeme.chars))
    have hnext := hblank.2 next List.mem_cons_self
    have hends := (htiles.ends_spaced_iff hnext others lexeme.kind).mpr hglues
    have hkind := (Lexeme.next?_eq_some_iff.mp hfound).2.1
    have hfound' := Lexeme.next?_eq_some_iff.mpr ⟨rfl, hkind, hends⟩
    refine ⟨Cursor.tokenAt (start.advance other) lexeme :: respaced, ?_, ?_⟩
    · rw [List.map_cons, spaced_cons, Cursor.chars_tokenAt]
      exact .token hblank.1 hfound' hrespaced
    · simp only [List.map_cons, hlexemes, Cursor.toLexeme_tokenAt] at hlexemes ⊢

/-- A text can be cut into given token texts and blanks in one way only. -/
theorem Tiles.gaps_eq (htiles : Tiles position text gaps tokens)
    (hlength : others.length = tokens.length)
    (hblank : ∀ gap ∈ others, gap.all Text.isBlank = true)
    (hspaced : spaced others (tokens.map Token.chars) = text) : others = gaps := by
  induction htiles generalizing others with
  | @stop position gap _ =>
    obtain ⟨other, rfl⟩ := List.length_eq_one_iff.mp hlength
    simpa [spaced, Token.chars, Cursor.endToken] using hspaced
  | @token position gap rest lexeme gaps tokens hgap hfound htiles ih =>
    obtain ⟨other, others, rfl⟩ := List.exists_cons_of_length_eq_add_one hlength
    rw [List.forall_mem_cons] at hblank
    rw [List.map_cons, spaced_cons, Cursor.chars_tokenAt] at hspaced
    obtain ⟨c, chars, hchars⟩ := List.exists_cons_of_ne_nil (Lexeme.splits_of_next? hfound).1
    have hfirst : ∀ rest : List Char, ∀ d ∈ (lexeme.chars ++ rest).head?,
        Text.isBlank d = false := by
      intro rest d hd
      rw [hchars] at hfound hd
      cases hd
      exact Lexeme.isBlank_eq_false_of_next? hfound
    -- Both runs of blanks end at the first character of the lexeme.
    obtain ⟨htake, hdrop⟩ :=
      takeWhile_dropWhile_run (List.all_eq_true.mp hgap) (hfirst rest)
    obtain ⟨htakeOther, hdropOther⟩ := takeWhile_dropWhile_run
      (List.all_eq_true.mp hblank.1) (hfirst (spaced others (tokens.map Token.chars)))
    rw [hspaced, htake] at htakeOther
    rw [hspaced, hdrop] at hdropOther
    have hothers := ih (Nat.succ.inj hlength) hblank.2 (List.append_cancel_left hdropOther).symm
    rw [htakeOther, hothers]

end Tiles

/-- The blanks of a source can be replaced by any others without a change in the
kinds and texts of its tokens, exactly when no two tokens that would run into
each other are left without a blank between them. -/
theorem respaced_tokens_iff {source file : String} {tokens : List Token}
    (htokens : tokenize source file = .ok tokens) {gaps : List (List Char)}
    (hlength : gaps.length = tokens.length) (hblank : ∀ gap ∈ gaps, gap.all Text.isBlank = true)
    (other : String) :
    (∃ respaced, tokenize (String.ofList (spaced gaps (tokens.map Token.chars))) other =
        .ok respaced ∧ respaced.map Token.toLexeme = tokens.map Token.toLexeme) ↔
      Separated gaps (tokens.map Token.kind) := by
  have hstart : Cursor.ofSource (String.ofList (spaced gaps (tokens.map Token.chars))) other =
      ⟨spaced gaps (tokens.map Token.chars), Position.start other⟩ := by
    rw [Cursor.ofSource, String.toList_ofList]
  obtain ⟨given, htiles⟩ := Cursor.tiles_of_all htokens
  constructor
  · rintro ⟨respaced, hrespaced, hlexemes⟩
    rw [tokenize, hstart] at hrespaced
    obtain ⟨found, hfound⟩ := Cursor.tiles_of_all hrespaced
    have hchars := congrArg (List.map Lexeme.chars) hlexemes
    have hkinds := congrArg (List.map Lexeme.kind) hlexemes
    rw [List.map_map, List.map_map] at hchars hkinds
    have hcount : gaps.length = respaced.length := by
      simpa [hlength] using (congrArg List.length hlexemes).symm
    have hgaps := hfound.gaps_eq hcount hblank (congrArg (spaced gaps) hchars)
    have hseparated := hgaps ▸ hfound.separated
    exact hkinds ▸ hseparated
  · intro hseparated
    obtain ⟨respaced, hrespaced, hlexemes⟩ :=
      htiles.exists_respaced hlength hblank hseparated (Position.start other)
    refine ⟨respaced, ?_, hlexemes⟩
    rw [tokenize, hstart]
    exact Cursor.all_of_tiles hrespaced

/-- A number may touch the word behind it, and an equals sign keeps its blank. -/
theorem respaced_tokens_close_together :
    ∃ tokens, tokenize "12 ab = == 3" "demo" = .ok tokens ∧
      ∃ respaced, tokenize "12ab= ==3\n" "other" = .ok respaced ∧
        respaced.map Token.toLexeme = tokens.map Token.toLexeme := by
  obtain ⟨tokens, htiles, hchars, hkinds⟩ : ∃ tokens,
      Tiles (Position.start "demo") "12 ab = == 3".toList
        [[], [' '], [' '], [' '], [' '], []] tokens ∧
      tokens.map Token.chars = [['1', '2'], ['a', 'b'], ['='], ['=', '='], ['3'], []] ∧
      tokens.map Token.kind = [.int, .ident, .equals, .equalsEquals, .int, .eof] := by
    refine ⟨_, @Tiles.token _ [] _ ⟨.int, ['1', '2']⟩ _ _ rfl rfl
      (@Tiles.token _ [' '] _ ⟨.ident, ['a', 'b']⟩ _ _ rfl rfl
        (@Tiles.token _ [' '] _ ⟨.equals, ['=']⟩ _ _ rfl rfl
          (@Tiles.token _ [' '] _ ⟨.equalsEquals, ['=', '=']⟩ _ _ rfl rfl
            (@Tiles.token _ [' '] _ ⟨.int, ['3']⟩ _ _ rfl rfl (.stop rfl))))), ?_, rfl⟩
    simp only [List.map, Cursor.chars_tokenAt]
    rfl
  have htokens : tokenize "12 ab = == 3" "demo" = .ok tokens := Cursor.all_of_tiles htiles
  have hlength := congrArg List.length hkinds
  rw [List.length_map] at hlength
  have hseparated : Separated [[], [], [], [' '], [], ['\n']] (tokens.map Token.kind) := by
    rw [hkinds]
    simp only [separated_cons_cons, separated_singleton, and_true]
    decide
  have hrespaced := (respaced_tokens_iff htokens hlength.symm (by decide) "other").mpr hseparated
  rw [hchars] at hrespaced
  exact ⟨tokens, htokens, hrespaced⟩

end ClassLang
