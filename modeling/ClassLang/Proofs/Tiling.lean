import ClassLang.Proofs.LongestMatch

/-!
# Tokens tile their source

A source that can be tokenized is cut into token texts with blanks in front of
each and behind the last one; nothing is lost.  The cursor keeps its position
step by step, and a token computes its last position from its length.  Both
agree with counting line feeds and characters in the text before, because the
position of a cursor depends only on what was read and no token spans a line.
-/

namespace ClassLang

/-! ## Places -/

namespace Position

/-- The place after a text. -/
def advance (position : Position) (text : List Char) : Position :=
  text.foldl after position

/-- The place of the character with the given number, where the first one has
number zero.  Its line is one more than the number of line feeds before it, and
its column one more than the number of characters since the last of these. -/
def ofIndex (file : String) (text : List Char) (index : Nat) : Position :=
  ⟨file, 1 + (text.take index).count '\n',
    1 + ((text.take index).reverse.takeWhile (· != '\n')).length⟩

/-- Earlier in the same file. -/
def Before (left right : Position) : Prop :=
  left.line < right.line ∨ (left.line = right.line ∧ left.column < right.column)

@[simp]
theorem advance_nil (position : Position) : position.advance [] = position := rfl

@[simp]
theorem advance_cons (position : Position) (c : Char) (text : List Char) :
    position.advance (c :: text) = (position.after c).advance text := rfl

/-- Going over two texts is going over one and then the other. -/
@[simp]
theorem advance_append (position : Position) (first last : List Char) :
    position.advance (first ++ last) = (position.advance first).advance last :=
  List.foldl_append

theorem advance_start_reverse (file : String) (text : List Char) :
    (start file).advance text.reverse =
      ⟨file, 1 + text.count '\n', 1 + (text.takeWhile (· != '\n')).length⟩ := by
  induction text with
  | nil => rfl
  | cons c text ih =>
    rw [List.reverse_cons, advance_append, ih]
    by_cases hline : c = '\n'
    · subst hline
      simp [after]
      omega
    · simp [after, hline]
      omega

/-- Going through a text step by step leads to the place that the text counts. -/
theorem advance_start_take (file : String) (text : List Char) (index : Nat) :
    (start file).advance (text.take index) = ofIndex file text index := by
  have hreverse := advance_start_reverse file (text.take index).reverse
  rw [List.reverse_reverse, List.count_reverse] at hreverse
  exact hreverse

/-- From the start, the position after a text is that of its index in the whole. -/
theorem advance_start_append (file : String) (before rest : List Char) :
    (start file).advance before = ofIndex file (before ++ rest) before.length := by
  rw [← advance_start_take, List.take_left]

/-- Within a line, only the column changes. -/
theorem advance_of_not_mem (position : Position) {text : List Char} (hline : '\n' ∉ text) :
    position.advance text = position.right text.length := by
  induction text generalizing position with
  | nil => simp [right]
  | cons c text ih =>
    rw [List.mem_cons, not_or] at hline
    rw [advance_cons, ih _ hline.2]
    simp [after, right, Ne.symm hline.1]
    omega

theorem Before.trans {first second third : Position} (hfirst : first.Before second)
    (hsecond : second.Before third) : first.Before third := by
  unfold Before at *
  omega

theorem Before.ne {left right : Position} (hbefore : left.Before right) : left ≠ right := by
  rintro rfl
  unfold Before at hbefore
  omega

/-- Every character leads to a later position. -/
theorem before_after (position : Position) (c : Char) : position.Before (position.after c) := by
  unfold after Before
  split
  · exact .inl (Int.lt_succ position.line)
  · exact .inr ⟨rfl, Int.lt_succ position.column⟩

theorem before_advance_cons (position : Position) (c : Char) (text : List Char) :
    position.Before (position.advance (c :: text)) := by
  induction text generalizing position c with
  | nil => exact position.before_after c
  | cons d text ih => exact (position.before_after c).trans (ih (position.after c) d)

theorem before_or_eq_advance (position : Position) (text : List Char) :
    position.Before (position.advance text) ∨ position = position.advance text := by
  cases text with
  | nil => exact .inr rfl
  | cons c text => exact .inl (position.before_advance_cons c text)

end Position

/-! ## Texts with blanks in front of them -/

def Token.chars (token : Token) : List Char :=
  token.lexeme.toList

/-- Each text with the blanks in front of it, one after the other. -/
def spaced (gaps texts : List (List Char)) : List Char :=
  (List.zipWith (· ++ ·) gaps texts).flatten

@[simp]
theorem spaced_nil (texts : List (List Char)) : spaced [] texts = [] := rfl

@[simp]
theorem spaced_cons (gap text : List Char) (gaps texts : List (List Char)) :
    spaced (gap :: gaps) (text :: texts) = gap ++ (text ++ spaced gaps texts) := by
  simp [spaced]

/-- The tokens that stand in a text from a position on, with the blanks in front
of each. -/
inductive Tiles : Position → List Char → List (List Char) → List Token → Prop
  | stop {position : Position} {gap : List Char} :
      gap.all Text.isBlank = true →
      Tiles position gap [gap] [Cursor.endToken (position.advance gap)]
  | token {position : Position} {gap rest : List Char} {lexeme : Lexeme}
      {gaps : List (List Char)} {tokens : List Token} :
      gap.all Text.isBlank = true →
      Lexeme.next? (lexeme.chars ++ rest) = some (lexeme, rest) →
      Tiles (position.advance (gap ++ lexeme.chars)) rest gaps tokens →
      Tiles position (gap ++ (lexeme.chars ++ rest)) (gap :: gaps)
        (Cursor.tokenAt (position.advance gap) lexeme :: tokens)

/-- No token spans a line. -/
theorem Lexeme.newline_not_mem {chars : List Char} {kind : Kind}
    (hkind : kindOf? chars = some kind) : '\n' ∉ chars := by
  intro hmem
  have hname : continuesName '\n' = false := by decide
  rcases kindOf?_cases hkind with ⟨c, others, rfl, hstart, hothers, -⟩ | ⟨-, hdigits, -⟩ | hentry
  · have hall : ∀ d ∈ c :: others, continuesName d = true :=
      List.forall_mem_cons.mpr ⟨continuesName_of_startsName hstart, List.all_eq_true.mp hothers⟩
    rw [hall _ hmem] at hname
    cases hname
  · rw [continuesName_of_isAsciiDigit (hdigits _ hmem)] at hname
    cases hname
  · have hall : operators.all (fun entry => '\n' ∉ entry.1) = true := by decide
    simpa [hmem] using List.all_eq_true.mp hall _ hentry

namespace Cursor

/-- Every text starts with a gap, which may be empty. -/
theorem exists_gap (text : List Char) :
    ∃ gap rest, text = gap ++ rest ∧ gap.all Text.isBlank = true ∧
      ∀ c ∈ rest.head?, Text.isBlank c = false :=
  ⟨text.takeWhile Text.isBlank, text.dropWhile Text.isBlank,
    List.takeWhile_append_dropWhile.symm, List.all_takeWhile, Lexeme.not_head?_dropWhile text⟩

/-- A gap in front makes no difference but for the position. -/
theorem next_gap {gap : List Char} (hgap : gap.all Text.isBlank = true) (text : List Char)
    (position : Position) :
    next ⟨gap ++ text, position⟩ = next ⟨text, position.advance gap⟩ := by
  induction gap generalizing position with
  | nil => rfl
  | cons c gap ih =>
    rw [List.all_cons, Bool.and_eq_true] at hgap
    rw [List.cons_append, next_blank hgap.1, ih hgap.2]
    rfl

/-- What one call can do: it reads blanks up to the end of the text, or blanks and
one lexeme, or it fails at the character behind the blanks. -/
theorem next_cases (cursor : Cursor) :
    ∃ gap rest, gap.all Text.isBlank = true ∧ cursor.text = gap ++ rest ∧
      ((rest = [] ∧ cursor.next =
          (.ok (endToken (cursor.position.advance gap)), ⟨[], cursor.position.advance gap⟩)) ∨
        (∃ lexeme after, Lexeme.next? rest = some (lexeme, after) ∧ cursor.next =
          (.ok (tokenAt (cursor.position.advance gap) lexeme),
            ⟨after, cursor.position.advance (gap ++ lexeme.chars)⟩)) ∨
        ∃ c more, rest = c :: more ∧ Text.isBlank c = false ∧ Lexeme.next? rest = none ∧
          cursor.next =
            (.error (.unexpectedCharacter c (Span.single (cursor.position.advance gap))),
              ⟨rest, cursor.position.advance gap⟩)) := by
  obtain ⟨text, position⟩ := cursor
  obtain ⟨gap, rest, rfl, hgap, hfirst⟩ := exists_gap text
  refine ⟨gap, rest, hgap, rfl, ?_⟩
  rw [next_gap hgap]
  cases rest with
  | nil => exact .inl ⟨rfl, rfl⟩
  | cons c more =>
    have hblank := hfirst c rfl
    cases hfound : Lexeme.next? (c :: more) with
    | none => exact .inr (.inr ⟨c, more, rfl, hblank, rfl, next_fault hblank hfound _⟩)
    | some found =>
      obtain ⟨lexeme, after⟩ := found
      have hkind := (Lexeme.next?_eq_some_iff.mp hfound).2.1
      have hline := (position.advance gap).advance_of_not_mem (Lexeme.newline_not_mem hkind)
      refine .inr (.inl ⟨lexeme, after, rfl, ?_⟩)
      rw [next_lexeme hfound, Position.advance_append, hline]

/-- A call that succeeds reads the blanks up to the end, or blanks and one lexeme. -/
theorem exists_gap_of_next {cursor after : Cursor} {token : Token}
    (heq : cursor.next = (.ok token, after)) :
    ∃ gap, gap.all Text.isBlank = true ∧
      ((cursor.text = gap ∧ token = endToken (cursor.position.advance gap)) ∨
        ∃ lexeme, cursor.text = gap ++ (lexeme.chars ++ after.text) ∧
          Lexeme.next? (lexeme.chars ++ after.text) = some (lexeme, after.text) ∧
          token = tokenAt (cursor.position.advance gap) lexeme ∧
          after.position = cursor.position.advance (gap ++ lexeme.chars)) := by
  obtain ⟨gap, rest, hgap, htext, hcases⟩ := cursor.next_cases
  rw [heq] at hcases
  refine ⟨gap, hgap, ?_⟩
  rcases hcases with ⟨rfl, hend⟩ | ⟨lexeme, _, hfound, hread⟩ | ⟨c, more, -, -, -, hfail⟩
  · cases hend
    exact .inl ⟨htext.trans (List.append_nil gap), rfl⟩
  · cases hread
    have hsplit := (Lexeme.splits_of_next? hfound).2
    dsimp only at hsplit
    rw [← hsplit] at htext hfound
    exact .inr ⟨lexeme, htext, hfound, rfl, rfl⟩
  · cases hfail

/-- The tokens of a cursor tile its text. -/
theorem tiles_of_all {cursor : Cursor} {tokens : List Token} (heq : cursor.all.1 = .ok tokens) :
    ∃ gaps, Tiles cursor.position cursor.text gaps tokens := by
  fun_induction Cursor.all cursor generalizing tokens with
  | case1 => simp at heq
  | case2 cursor token after hnext hkind =>
    simp only [Except.ok.injEq] at heq
    subst heq
    obtain ⟨gap, hgap, ⟨htext, rfl⟩ | ⟨lexeme, -, hfound, rfl, -⟩⟩ := exists_gap_of_next hnext
    · rw [htext]
      exact ⟨[gap], .stop hgap⟩
    · exact absurd hkind (Lexeme.genuine_of_next? hfound).notEnd
  | case3 cursor token after hnext hkind hlength read last hall ih =>
    rw [hall] at ih
    cases hread : read with
    | error error => simp [hread, Except.map] at heq
    | ok others =>
      simp only [hread, Except.map, Except.ok.injEq] at heq
      subst heq
      obtain ⟨gaps, htiles⟩ := ih hread
      obtain ⟨gap, hgap, ⟨-, rfl⟩ | ⟨lexeme, htext, hfound, rfl, hposition⟩⟩ :=
        exists_gap_of_next hnext
      · exact absurd rfl hkind
      · rw [hposition] at htiles
        rw [htext]
        exact ⟨gap :: gaps, .token hgap hfound htiles⟩

/-- Tokens that tile a text are the tokens of it. -/
theorem all_of_tiles {position : Position} {text : List Char} {gaps : List (List Char)}
    {tokens : List Token} (htiles : Tiles position text gaps tokens) :
    (all ⟨text, position⟩).1 = .ok tokens := by
  induction htiles with
  | @stop position gap hgap =>
    have hnext := next_gap hgap [] position
    rw [List.append_nil] at hnext
    rw [all_eq, hnext]
    rfl
  | @token position gap rest lexeme gaps tokens hgap hfound _ ih =>
    have hkind : (tokenAt (position.advance gap) lexeme).kind ≠ .eof :=
      (Lexeme.genuine_of_next? hfound).notEnd
    have hline := Position.advance_of_not_mem (position.advance gap)
      (Lexeme.newline_not_mem (Lexeme.next?_eq_some_iff.mp hfound).2.1)
    rw [Position.advance_append, hline] at ih
    rw [all_eq, next_gap hgap, next_lexeme hfound]
    simp only [hkind, if_false, ih]
    rfl

end Cursor

/-! ## Where tokens stand -/

/-- From the character with number `start` on, the text starts with the token:
no token text at that place is longer, the kind is that of the token text, and
the span reaches from its first to its last character. -/
structure Token.FitsAt (file : String) (text : List Char) (start : Nat) (token : Token) :
    Prop where
  notEnd : token.kind ≠ .eof
  nonempty : token.chars ≠ []
  oneLine : '\n' ∉ token.chars
  found : token.chars <+: text.drop start
  longest : ∀ other, other <+: text.drop start → (Lexeme.kindOf? other).isSome →
    other.length ≤ token.chars.length
  kind : Lexeme.kindOf? token.chars = some token.kind
  first : token.span.first = Position.ofIndex file text start
  last : token.span.last = Position.ofIndex file text (start + token.chars.length - 1)

theorem Cursor.chars_tokenAt (position : Position) (lexeme : Lexeme) :
    (tokenAt position lexeme).chars = lexeme.chars :=
  String.toList_ofList

theorem Cursor.last_tokenAt {lexeme : Lexeme} (hne : lexeme.chars ≠ [])
    (hline : '\n' ∉ lexeme.chars) (file : String) (before rest : List Char) :
    (tokenAt ((Position.start file).advance before) lexeme).span.last =
      Position.ofIndex file (before ++ (lexeme.chars ++ rest))
        (before.length + lexeme.chars.length - 1) := by
  obtain ⟨kind, chars⟩ := lexeme
  obtain ⟨front, last, rfl⟩ : ∃ front last, chars = front ++ [last] :=
    ⟨chars.dropLast, chars.getLast hne, (List.dropLast_concat_getLast hne).symm⟩
  have hfront : '\n' ∉ front := fun hmem => hline (List.mem_append_left _ hmem)
  have hcount : ((front ++ [last]).length : Int) - 1 = front.length := by simp
  have hindex : before.length + (front ++ [last]).length - 1 = (before ++ front).length := by simp
  have htext : before ++ ((front ++ [last]) ++ rest) = (before ++ front) ++ (last :: rest) := by
    simp
  simp only [tokenAt]
  rw [hcount, hindex, htext, ← Position.advance_of_not_mem _ hfront, ← Position.advance_append,
    Position.advance_start_append]

/-- A token stands where its lexeme was found. -/
theorem Cursor.fitsAt_tokenAt {lexeme : Lexeme} {rest : List Char}
    (hfound : Lexeme.next? (lexeme.chars ++ rest) = some (lexeme, rest)) (file : String)
    (before : List Char) :
    (tokenAt ((Position.start file).advance before) lexeme).FitsAt file
      (before ++ (lexeme.chars ++ rest)) before.length := by
  obtain ⟨-, hkind, hends⟩ := Lexeme.next?_eq_some_iff.mp hfound
  have hne := (Lexeme.splits_of_next? hfound).1
  have hline := Lexeme.newline_not_mem hkind
  have hchars := chars_tokenAt ((Position.start file).advance before) lexeme
  refine ⟨(Lexeme.genuine_of_next? hfound).notEnd, ?_, ?_, ?_, ?_, ?_, ?_, ?_⟩
  all_goals try rw [hchars]
  · exact hne
  · exact hline
  · rw [List.drop_left]
    exact List.prefix_append lexeme.chars rest
  · rw [List.drop_left]
    exact fun other hother => Lexeme.length_le_of_ends hkind hends hother
  · exact hkind
  · exact Position.advance_start_append file before (lexeme.chars ++ rest)
  · exact last_tokenAt hne hline file before rest

section Tiles

variable {position : Position} {text : List Char} {gaps : List (List Char)} {tokens : List Token}

theorem Tiles.length_eq (htiles : Tiles position text gaps tokens) :
    gaps.length = tokens.length := by
  induction htiles with
  | stop => rfl
  | token _ _ _ ih => exact congrArg (· + 1) ih

theorem Tiles.all_isBlank (htiles : Tiles position text gaps tokens) :
    ∀ gap ∈ gaps, gap.all Text.isBlank = true := by
  induction htiles with
  | stop hgap => exact List.forall_mem_singleton.mpr hgap
  | token hgap _ _ ih => exact List.forall_mem_cons.mpr ⟨hgap, ih⟩

/-- Gaps and tokens make up the whole text. -/
theorem Tiles.spaced_eq (htiles : Tiles position text gaps tokens) :
    spaced gaps (tokens.map Token.chars) = text := by
  induction htiles with
  | stop => simp [spaced, Token.chars, Cursor.endToken]
  | token _ _ _ ih => rw [List.map_cons, spaced_cons, ih, Cursor.chars_tokenAt]

/-- The tokens before the end token stand where they say.  The text before the
position is carried along, so that numbers of characters count from the start
of the source. -/
theorem Tiles.exists_body (htiles : Tiles position text gaps tokens) {file : String}
    {before : List Char} (hposition : position = (Position.start file).advance before) :
    ∃ body, tokens =
        body ++ [Cursor.endToken (Position.ofIndex file (before ++ text) (before ++ text).length)] ∧
      ∀ (i : Nat) (gap : List Char) (token : Token), gaps[i]? = some gap → body[i]? = some token →
        token.FitsAt file (before ++ text)
          (before ++ (spaced (gaps.take i) (body.map Token.chars) ++ gap)).length := by
  induction htiles generalizing before with
  | @stop position gap hgap =>
    subst hposition
    refine ⟨[], ?_, by simp⟩
    rw [← Position.advance_append, Position.advance_start_append file (before ++ gap) [],
      List.append_nil, List.nil_append]
  | @token position gap rest lexeme gaps tokens hgap hfound _ ih =>
    subst hposition
    have htext : before ++ (gap ++ (lexeme.chars ++ rest)) =
        (before ++ (gap ++ lexeme.chars)) ++ rest := by simp
    obtain ⟨body, htokens, hbody⟩ := ih (Position.advance_append _ before _).symm
    rw [← htext] at htokens hbody
    refine ⟨_ :: body, by rw [htokens]; rfl, ?_⟩
    intro i other token hgapAt htokenAt
    cases i with
    | zero =>
      cases hgapAt
      cases htokenAt
      have hfits := Cursor.fitsAt_tokenAt hfound file (before ++ gap)
      simpa using hfits
    | succ i =>
      have hfits := hbody i other token hgapAt htokenAt
      simpa [Cursor.chars_tokenAt] using hfits

/-- No token stands before the position from which the text is read. -/
theorem Tiles.before_or_eq (htiles : Tiles position text gaps tokens) :
    ∀ token ∈ tokens, position.Before token.span.first ∨ position = token.span.first := by
  induction htiles with
  | @stop position gap _ =>
    exact List.forall_mem_singleton.mpr (position.before_or_eq_advance gap)
  | @token position gap rest lexeme gaps tokens _ _ _ ih =>
    refine List.forall_mem_cons.mpr ⟨position.before_or_eq_advance gap, ?_⟩
    intro token hmem
    rcases position.before_or_eq_advance (gap ++ lexeme.chars) with hbefore | heq
    · rcases ih token hmem with hlater | hsame
      · exact .inl (hbefore.trans hlater)
      · exact .inl (hsame ▸ hbefore)
    · rw [← heq] at ih
      exact ih token hmem

/-- Later tokens stand at later places. -/
theorem Tiles.pairwise_before (htiles : Tiles position text gaps tokens) :
    tokens.Pairwise fun left right => left.span.first.Before right.span.first := by
  induction htiles with
  | stop => exact List.pairwise_singleton _ _
  | @token position gap rest lexeme gaps tokens _ hfound htiles ih =>
    refine List.pairwise_cons.mpr ⟨?_, ih⟩
    obtain ⟨c, chars, hchars⟩ := List.exists_cons_of_ne_nil (Lexeme.splits_of_next? hfound).1
    have hbefore := (position.advance gap).before_advance_cons c chars
    rw [← hchars, ← Position.advance_append] at hbefore
    intro token hmem
    rcases htiles.before_or_eq token hmem with hlater | hsame
    · exact hbefore.trans hlater
    · exact hsame ▸ hbefore

end Tiles

/-- The tokens of a source and the blanks between them make up the source.  There
is one end token, the last one, and it stands behind the last character.  Every
other token is the longest token text at its place, of the kind that this text
has, and its span is where the text stands in the source. -/
theorem tokens_tile_source {source file : String} {tokens : List Token}
    (htokens : tokenize source file = .ok tokens) :
    ∃ (body : List Token) (gaps : List (List Char)),
      tokens = body ++ [⟨.eof, "",
        Span.single (Position.ofIndex file source.toList source.toList.length)⟩] ∧
      gaps.length = tokens.length ∧ (∀ gap ∈ gaps, gap.all Text.isBlank = true) ∧
      spaced gaps (tokens.map Token.chars) = source.toList ∧
      ∀ (i : Nat) (gap : List Char) (token : Token), gaps[i]? = some gap → body[i]? = some token →
        token.FitsAt file source.toList
          (spaced (gaps.take i) (body.map Token.chars) ++ gap).length := by
  obtain ⟨gaps, htiles⟩ := Cursor.tiles_of_all htokens
  have hstart : (Cursor.ofSource source file).position =
      (Position.start file).advance [] := rfl
  obtain ⟨body, hbody, hfits⟩ := htiles.exists_body hstart
  exact ⟨body, gaps, hbody, htiles.length_eq, htiles.all_isBlank, htiles.spaced_eq, hfits⟩

/-- In the second line two operators stand together, and a number touches a
name. -/
theorem tokens_tile_source_two_lines :
    ∃ (tokens body : List Token) (gaps : List (List Char)),
      tokenize "INT x1\n\t=== 12ab;" "demo" = .ok tokens ∧
      tokens = body ++ [⟨.eof, "", Span.single ⟨"demo", 2, 11⟩⟩] ∧
      gaps.length = tokens.length ∧ (∀ gap ∈ gaps, gap.all Text.isBlank = true) ∧
      spaced gaps (tokens.map Token.chars) = "INT x1\n\t=== 12ab;".toList ∧
      ∀ (i : Nat) (gap : List Char) (token : Token), gaps[i]? = some gap → body[i]? = some token →
        token.FitsAt "demo" "INT x1\n\t=== 12ab;".toList
          (spaced (gaps.take i) (body.map Token.chars) ++ gap).length := by
  have hscans : Scans "INT x1\n\t=== 12ab;".toList
      [⟨.intWord, "INT".toList⟩, ⟨.ident, "x1".toList⟩, ⟨.equalsEquals, "==".toList⟩,
        ⟨.equals, ['=']⟩, ⟨.int, "12".toList⟩, ⟨.ident, "ab".toList⟩, ⟨.semicolon, [';']⟩] [] :=
    .lexeme rfl (.blank rfl (.lexeme rfl (.blank rfl (.blank rfl (.lexeme rfl (.lexeme rfl
      (.blank rfl (.lexeme rfl (.lexeme rfl (.lexeme rfl (.done _)))))))))))
  obtain ⟨tokens, htokens, -⟩ := tokenize_of_scans hscans "demo"
  obtain ⟨body, gaps, hbody, hrest⟩ := tokens_tile_source htokens
  exact ⟨tokens, body, gaps, htokens, hbody, hrest⟩

end ClassLang
