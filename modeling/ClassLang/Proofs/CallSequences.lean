import ClassLang.Proofs.Legibility

/-!
# Calls on one cursor

A cursor answers two kinds of calls, for one token and for all that are left, in
any order.  Every answer moves it along the same stream of tokens, the one that
calls for single tokens give.  A cursor that has given the end token, or has met
a character that starts no token, has come to rest: it gives this answer to
every later call and does not move.
-/

namespace ClassLang

namespace Cursor

inductive Call where
  | next
  | all
  deriving DecidableEq, Repr

/-- The tokens that a call returns, and the cursor after it. -/
def answer (cursor : Cursor) : Call → Except SourceError (List Token) × Cursor
  | .next => (cursor.next.1.map ([·]), cursor.next.2)
  | .all => cursor.all

/-- The cursor after some calls. -/
def afterCalls (cursor : Cursor) : List Call → Cursor
  | [] => cursor
  | call :: calls => (cursor.answer call).2.afterCalls calls

/-- The answers to some calls, in order. -/
def answers (cursor : Cursor) : List Call → List (Except SourceError (List Token))
  | [] => []
  | call :: calls => (cursor.answer call).1 :: (cursor.answer call).2.answers calls

/-- The tokens in a list of answers, up to the first failure or the first answer
with an end token. -/
def delivered : List (Except SourceError (List Token)) → List Token
  | .ok tokens :: answers =>
    if tokens.any (·.kind = .eof) then tokens else tokens ++ delivered answers
  | _ => []

theorem afterCalls_append (cursor : Cursor) (first last : List Call) :
    cursor.afterCalls (first ++ last) = (cursor.afterCalls first).afterCalls last := by
  induction first generalizing cursor with
  | nil => rfl
  | cons call first ih => exact ih _

/-- Calls are answered one after the other. -/
theorem answers_append (cursor : Cursor) (first last : List Call) :
    cursor.answers (first ++ last) =
      cursor.answers first ++ (cursor.afterCalls first).answers last := by
  induction first generalizing cursor with
  | nil => rfl
  | cons call first ih => exact congrArg _ (ih _)

/-- An answer in the middle of others was given to a call in the middle of
others. -/
theorem exists_calls_of_answers {cursor : Cursor} {calls : List Call}
    {before later : List (Except SourceError (List Token))}
    {given : Except SourceError (List Token)}
    (heq : cursor.answers calls = before ++ given :: later) :
    ∃ earlier call others, calls = earlier ++ call :: others ∧ earlier.length = before.length ∧
      ((cursor.afterCalls earlier).answer call).1 = given ∧
      ((cursor.afterCalls earlier).answer call).2.answers others = later := by
  induction before generalizing cursor calls with
  | nil =>
    cases calls with
    | nil => cases heq
    | cons call calls =>
      obtain ⟨hgiven, hlater⟩ := List.cons.inj heq
      exact ⟨[], call, calls, rfl, rfl, hgiven, hlater⟩
  | cons first before ih =>
    cases calls with
    | nil => cases heq
    | cons call calls =>
      obtain ⟨earlier, asked, others, rfl, hlength, hgiven, hlater⟩ := ih (List.cons.inj heq).2
      exact ⟨call :: earlier, asked, others, rfl, congrArg (· + 1) hlength, hgiven, hlater⟩

/-! ## One call -/

/-- The cursor gives this answer to every call and stays where it is. -/
def Repeats (cursor : Cursor) (given : Except SourceError (List Token)) : Prop :=
  ∀ call, cursor.answer call = (given, cursor)

section Rest

variable {cursor after : Cursor} {given : Except SourceError (List Token)}

theorem Repeats.afterCalls (hrepeats : cursor.Repeats given) (calls : List Call) :
    cursor.afterCalls calls = cursor := by
  induction calls with
  | nil => rfl
  | cons call calls ih => rw [Cursor.afterCalls, hrepeats call, ih]

/-- Where an answer repeats itself, no call gets another one. -/
theorem Repeats.answers (hrepeats : cursor.Repeats given) (calls : List Call) :
    ∀ other ∈ cursor.answers calls, other = given := by
  induction calls with
  | nil => simp [Cursor.answers]
  | cons call calls ih =>
    rw [Cursor.answers, hrepeats call]
    exact List.forall_mem_cons.mpr ⟨rfl, ih⟩

theorem repeats_of_next_end {token : Token} (hnext : cursor.next = (.ok token, after))
    (hkind : token.kind = .eof) : after.Repeats (.ok [token]) := by
  obtain ⟨gap, rest, -, -, hcases⟩ := cursor.next_cases
  rw [hnext] at hcases
  rcases hcases with ⟨-, hend⟩ | ⟨lexeme, _, hfound, hread⟩ | ⟨c, more, -, -, -, hfail⟩
  · cases hend
    intro call
    cases call with
    | next => rfl
    | all =>
      rw [answer, all_eq]
      rfl
  · cases hread
    exact absurd hkind (Lexeme.genuine_of_next? hfound).notEnd
  · cases hfail

/-- After a fault the same fault is reported again and again. -/
theorem repeats_of_next_error {error : SourceError} (hnext : cursor.next = (.error error, after)) :
    after.Repeats (.error error) := by
  obtain ⟨gap, rest, -, -, hcases⟩ := cursor.next_cases
  rw [hnext] at hcases
  rcases hcases with ⟨-, hend⟩ | ⟨lexeme, _, -, hread⟩ | ⟨c, more, rfl, hblank, hnone, hfail⟩
  · cases hend
  · cases hread
  · cases hfail
    have hagain := next_fault hblank hnone (cursor.position.advance gap)
    intro call
    cases call with
    | next =>
      rw [answer, hagain]
      rfl
    | all => rw [answer, all_eq, hagain]

end Rest

/-! ## All tokens, one by one -/

/-- A call for all tokens does what calls for one token do, up to the first end
token or the first failure. -/
theorem exists_calls_of_all (cursor : Cursor) :
    ∃ body last, cursor.answers (List.replicate body.length .next) = body.map (.ok [·]) ∧
      cursor.afterCalls (List.replicate body.length .next) = last ∧
      (∀ token ∈ body, token.kind ≠ .eof) ∧
      ((∃ stop after, last.next = (.ok stop, after) ∧ stop.kind = .eof ∧
          cursor.all = (.ok (body ++ [stop]), after)) ∨
        ∃ error after, last.next = (.error error, after) ∧ cursor.all = (.error error, after)) := by
  fun_induction Cursor.all cursor with
  | case1 cursor error after hnext =>
    exact ⟨[], cursor, rfl, rfl, by simp, .inr ⟨error, after, hnext, rfl⟩⟩
  | case2 cursor token after hnext hkind =>
    exact ⟨[], cursor, rfl, rfl, by simp, .inl ⟨token, after, hnext, hkind, rfl⟩⟩
  | case3 cursor token after hnext hkind hlength read final hall ih =>
    obtain ⟨body, last, hbody, hlast, hkinds, hcases⟩ := ih
    have hanswer : cursor.answer .next = (.ok [token], after) := by
      rw [answer, hnext]
      rfl
    refine ⟨token :: body, last, ?_, ?_, List.forall_mem_cons.mpr ⟨hkind, hkinds⟩, ?_⟩
    · rw [List.length_cons, List.replicate_succ, answers, hanswer, hbody]
      rfl
    · rw [List.length_cons, List.replicate_succ, afterCalls, hanswer, hlast]
    · rw [hall] at hcases
      rcases hcases with ⟨stop, _, hstop, hend, heq⟩ | ⟨error, _, hfail, heq⟩
      · cases heq
        exact .inl ⟨stop, final, hstop, hend, rfl⟩
      · cases heq
        exact .inr ⟨error, final, hfail, rfl⟩

/-- What a call can do, told by calls for one token: it returns tokens other than
the end token, or the end token with those before it, or it fails. -/
theorem answer_cases (cursor : Cursor) (call : Call) :
    ∃ body last, cursor.answers (List.replicate body.length .next) = body.map (.ok [·]) ∧
      cursor.afterCalls (List.replicate body.length .next) = last ∧
      (∀ token ∈ body, token.kind ≠ .eof) ∧
      (cursor.answer call = (.ok body, last) ∨
        (∃ stop after, last.next = (.ok stop, after) ∧ stop.kind = .eof ∧
          cursor.answer call = (.ok (body ++ [stop]), after)) ∨
        ∃ error after, last.next = (.error error, after) ∧
          cursor.answer call = (.error error, after)) := by
  cases call with
  | all =>
    obtain ⟨body, last, hbody, hlast, hkinds, hcases⟩ := cursor.exists_calls_of_all
    exact ⟨body, last, hbody, hlast, hkinds, .inr hcases⟩
  | next =>
    rcases hnext : cursor.next with ⟨error | token, after⟩
    · refine ⟨[], cursor, rfl, rfl, by simp, .inr (.inr ⟨error, after, hnext, ?_⟩)⟩
      rw [answer, hnext]
      rfl
    · have hanswer : cursor.answer .next = (.ok [token], after) := by
        rw [answer, hnext]
        rfl
      by_cases hkind : token.kind = .eof
      · exact ⟨[], cursor, rfl, rfl, by simp, .inr (.inl ⟨token, after, hnext, hkind, hanswer⟩)⟩
      · refine ⟨[token], after, ?_, ?_, by simpa using hkind, .inl hanswer⟩
        · simp [answers, hanswer]
        · simp [afterCalls, hanswer]

section Answer

variable {cursor after : Cursor} {call : Call} {tokens : List Token}

/-- The tokens of an answer are those that calls for one token give. -/
theorem calls_of_answer_ok (hanswer : cursor.answer call = (.ok tokens, after)) :
    cursor.answers (List.replicate tokens.length .next) = tokens.map (.ok [·]) ∧
      cursor.afterCalls (List.replicate tokens.length .next) = after := by
  obtain ⟨body, last, hbody, hlast, -, hcases⟩ := cursor.answer_cases call
  rw [hanswer] at hcases
  rcases hcases with heq | ⟨stop, _, hstop, -, heq⟩ | ⟨error, _, -, heq⟩
  · cases heq
    exact ⟨hbody, hlast⟩
  · cases heq
    have hlength : (body ++ [stop]).length = body.length + 1 := List.length_append
    rw [hlength, ← List.replicate_append_replicate, answers_append, afterCalls_append, hbody, hlast]
    simp [answers, afterCalls, answer, hstop, Except.map]
  · cases heq

theorem repeats_of_answer_end {token : Token} (hanswer : cursor.answer call = (.ok tokens, after))
    (hmem : token ∈ tokens) (hkind : token.kind = .eof) : after.Repeats (.ok [token]) := by
  obtain ⟨body, last, -, -, hkinds, hcases⟩ := cursor.answer_cases call
  rw [hanswer] at hcases
  rcases hcases with heq | ⟨stop, _, hstop, -, heq⟩ | ⟨error, _, -, heq⟩
  · cases heq
    exact absurd hkind (hkinds token hmem)
  · cases heq
    rcases List.mem_append.mp hmem with hbody | hlast
    · exact absurd hkind (hkinds token hbody)
    · cases List.mem_singleton.mp hlast
      exact repeats_of_next_end hstop hkind
  · cases heq

theorem repeats_of_answer_error {error : SourceError}
    (hanswer : cursor.answer call = (.error error, after)) : after.Repeats (.error error) := by
  obtain ⟨body, last, -, -, -, hcases⟩ := cursor.answer_cases call
  rw [hanswer] at hcases
  rcases hcases with heq | ⟨stop, _, -, -, heq⟩ | ⟨other, _, hfail, heq⟩
  · cases heq
  · cases heq
  · cases heq
    exact repeats_of_next_error hfail

end Answer

/-- The tokens that any calls deliver are the first ones that calls for one token
give. -/
theorem calls_of_delivered (cursor : Cursor) (calls : List Call) :
    cursor.answers (List.replicate (delivered (cursor.answers calls)).length .next) =
      (delivered (cursor.answers calls)).map (.ok [·]) := by
  induction calls generalizing cursor with
  | nil => rfl
  | cons call calls ih =>
    rcases hanswer : cursor.answer call with ⟨error | tokens, after⟩
    · rw [answers, hanswer]
      rfl
    · obtain ⟨htokens, hafter⟩ := calls_of_answer_ok hanswer
      rw [answers, hanswer, delivered]
      split
      · exact htokens
      · rw [List.length_append, ← List.replicate_append_replicate, answers_append, htokens, hafter,
          ih, List.map_append]

/-! ## Where the cursor is -/

/-- The later cursor has read on in the text of the first one. -/
def Reaches (cursor later : Cursor) : Prop :=
  ∃ read, cursor.text = read ++ later.text ∧ later.position = cursor.position.advance read

theorem Reaches.refl (cursor : Cursor) : cursor.Reaches cursor :=
  ⟨[], rfl, rfl⟩

theorem Reaches.trans {first second third : Cursor} (hfirst : first.Reaches second)
    (hsecond : second.Reaches third) : first.Reaches third := by
  obtain ⟨read, htext, hposition⟩ := hfirst
  obtain ⟨more, hmore, hlast⟩ := hsecond
  refine ⟨read ++ more, ?_, ?_⟩
  · rw [htext, hmore, List.append_assoc]
  · rw [hlast, hposition, Position.advance_append]

theorem reaches_of_next {cursor after : Cursor} {result : Except SourceError Token}
    (hresult : cursor.next = (result, after)) : cursor.Reaches after := by
  obtain ⟨gap, rest, -, htext, hcases⟩ := cursor.next_cases
  rw [hresult] at hcases
  rcases hcases with ⟨rfl, hend⟩ | ⟨lexeme, _, hfound, hread⟩ | ⟨c, more, -, -, -, hfail⟩
  · cases hend
    exact ⟨gap, htext, rfl⟩
  · cases hread
    refine ⟨gap ++ lexeme.chars, ?_, rfl⟩
    rw [htext, List.append_assoc, (Lexeme.next?_eq_some_iff.mp hfound).1]
  · cases hfail
    exact ⟨gap, htext, rfl⟩

theorem reaches_all (cursor : Cursor) : cursor.Reaches cursor.all.2 := by
  fun_induction Cursor.all cursor with
  | case1 cursor error after hnext => exact reaches_of_next hnext
  | case2 cursor token after hnext _ => exact reaches_of_next hnext
  | case3 cursor token after hnext _ _ read final hall ih =>
    rw [hall] at ih
    exact (reaches_of_next hnext).trans ih

/-- Calls only move a cursor forward. -/
theorem reaches_afterCalls (cursor : Cursor) (calls : List Call) :
    cursor.Reaches (cursor.afterCalls calls) := by
  induction calls generalizing cursor with
  | nil => exact .refl cursor
  | cons call calls ih =>
    have hanswer : cursor.Reaches (cursor.answer call).2 := by
      cases call with
      | next => exact reaches_of_next rfl
      | all => exact cursor.reaches_all
    exact hanswer.trans (ih _)

/-- A cursor that fails again and again is in front of the character that it
reports. -/
theorem Repeats.exists_eq {cursor : Cursor} {error : SourceError}
    (hrepeats : cursor.Repeats (.error error)) :
    ∃ c rest, cursor.text = c :: rest ∧
      error = .unexpectedCharacter c (Span.single cursor.position) := by
  have hnext := hrepeats .next
  obtain ⟨gap, rest, -, -, hcases⟩ := cursor.next_cases
  rcases hcases with ⟨-, hend⟩ | ⟨lexeme, _, -, hread⟩ | ⟨c, more, rfl, -, -, hfail⟩
  · rw [answer, hend] at hnext
    cases hnext
  · rw [answer, hread] at hnext
    cases hnext
  · rw [answer, hfail] at hnext
    obtain ⟨herror, hcursor⟩ := Prod.mk.inj hnext
    rw [← hcursor]
    exact ⟨c, more, rfl, (Except.error.inj herror).symm⟩

/-- The calls after a failure leave the cursor where it is. -/
theorem afterCalls_of_repeats {cursor : Cursor} {earlier : List Call} {call : Call}
    {given : Except SourceError (List Token)}
    (hrepeats : ((cursor.afterCalls earlier).answer call).2.Repeats given) (more : List Call) :
    cursor.afterCalls (earlier ++ call :: more) = ((cursor.afterCalls earlier).answer call).2 := by
  rw [afterCalls_append, afterCalls, hrepeats.afterCalls]

end Cursor

open Cursor

/-- Any calls on a fresh cursor read one stream of tokens, the one that calls for
one token give: they deliver its first tokens.  After an end token every call
returns this token alone.  After a failure every call fails in the same way, at a
character of the source that the cursor stays in front of and was never behind. -/
theorem calls_read_one_stream (source file : String) (calls : List Call) :
    let start := Cursor.ofSource source file
    start.answers (List.replicate (delivered (start.answers calls)).length .next) =
        (delivered (start.answers calls)).map (.ok [·]) ∧
      (∀ before tokens later token, start.answers calls = before ++ .ok tokens :: later →
        token ∈ tokens → token.kind = .eof → ∀ given ∈ later, given = .ok [token]) ∧
      ∀ before error later, start.answers calls = before ++ .error error :: later →
        (∀ given ∈ later, given = .error error) ∧
        ∃ read c rest, source.toList = read ++ c :: rest ∧
          error = .unexpectedCharacter c
            (Span.single (Position.ofIndex file source.toList read.length)) ∧
          ∀ first last, calls = first ++ last →
            c :: rest <:+ (start.afterCalls first).text ∧
            (before.length < first.length → start.afterCalls first =
              ⟨c :: rest, Position.ofIndex file source.toList read.length⟩) := by
  intro start
  refine ⟨start.calls_of_delivered calls, ?_, ?_⟩
  · intro before tokens later token heq hmem hkind
    obtain ⟨earlier, call, others, -, -, hgiven, rfl⟩ := exists_calls_of_answers heq
    have hrepeats := repeats_of_answer_end (Prod.ext hgiven rfl) hmem hkind
    exact hrepeats.answers others
  · intro before error later heq
    obtain ⟨earlier, call, others, rfl, hlength, hgiven, rfl⟩ := exists_calls_of_answers heq
    have hrepeats := repeats_of_answer_error (Prod.ext hgiven rfl)
    have hstays := afterCalls_of_repeats hrepeats
    refine ⟨hrepeats.answers others, ?_⟩
    obtain ⟨c, rest, htext, herror⟩ := hrepeats.exists_eq
    obtain ⟨read, hsource, hposition⟩ := start.reaches_afterCalls (earlier ++ [call])
    rw [hstays [], htext] at hsource
    have hplace : ((start.afterCalls earlier).answer call).2.position =
        Position.ofIndex file source.toList read.length := by
      rw [← hstays [], hposition, show source.toList = _ from hsource]
      exact Position.advance_start_append file read (c :: rest)
    refine ⟨read, c, rest, hsource, by rw [herror, hplace], ?_⟩
    intro first last hcalls
    constructor
    · obtain ⟨more, hmore, -⟩ := (start.afterCalls first).reaches_afterCalls last
      rw [← afterCalls_append, ← hcalls, hstays others, htext] at hmore
      exact ⟨more, hmore.symm⟩
    · intro hlater
      rcases List.append_eq_append_iff.mp hcalls with ⟨more, rfl, hothers⟩ | ⟨more, rfl, -⟩
      · cases more with
        | nil => simp [hlength] at hlater
        | cons other more =>
          cases hothers
          rw [hstays more, ← htext, ← hplace]
      · rw [← hlength, List.length_append] at hlater
        omega

/-- A call for all tokens fails at the mark, and so do the calls after it. -/
theorem calls_read_one_stream_stray_mark :
    ∃ token error later,
      (Cursor.ofSource "x ! y" "demo").answers [.next, .all, .next, .all] =
        [.ok [token]] ++ .error error :: later ∧
      later.length = 2 ∧ ∀ given ∈ later, given = .error error := by
  have hscans : Scans [' ', '!', ' ', 'y'] [] ['!', ' ', 'y'] := .blank rfl (.done _)
  have hstops : Stops ['!', ' ', 'y'] := by
    intro c hc
    cases hc
    exact ⟨rfl, rfl⟩
  obtain ⟨read, -, hall⟩ := all_of_stops hscans hstops ⟨"demo", 1, 2⟩
  have hanswers : (Cursor.ofSource "x ! y" "demo").answers [.next, .all, .next, .all] =
      [.ok [⟨.ident, "x", .single ⟨"demo", 1, 1⟩⟩]] ++
        (all ⟨[' ', '!', ' ', 'y'], ⟨"demo", 1, 2⟩⟩).1 ::
          (all ⟨[' ', '!', ' ', 'y'], ⟨"demo", 1, 2⟩⟩).2.answers [.next, .all] := rfl
  rw [hall] at hanswers
  obtain ⟨-, -, hfailed⟩ := calls_read_one_stream "x ! y" "demo" [.next, .all, .next, .all]
  exact ⟨_, _, _, hanswers, rfl, (hfailed _ _ _ hanswers).1⟩

end ClassLang
