import ClassLang.SourceError
import ClassLang.Text.Blank
import ClassLang.Token.Basic
import ClassLang.Token.Lexeme

/-!
# Reading tokens

A cursor is the text that is still to be read and the position of its first
character.  `Cursor.next` reads one token and `Cursor.all` the rest of the
text; calls of both kinds may follow each other in any order.  At the end of
the text there is an end token, again and again.  A call that meets a character
which starts no token fails and leaves the cursor on that character.
-/

namespace ClassLang

structure Cursor where
  text : List Char
  position : Position
  deriving DecidableEq, Repr

namespace Cursor

/-- The start of a source, in the file of the given name. -/
def ofSource (source file : String) : Cursor :=
  ⟨source.toList, Position.start file⟩

/-- The cursor after the blanks at the front. -/
def skipBlanks : List Char → Position → Cursor
  | [], position => ⟨[], position⟩
  | c :: text, position =>
    if Text.isBlank c then skipBlanks text (position.after c) else ⟨c :: text, position⟩

/-- The token that ends the text. -/
def endToken (position : Position) : Token :=
  ⟨.eof, "", Span.single position⟩

/-- A lexeme that starts at the given position.  No lexeme holds a line feed,
so it ends in the line in which it starts. -/
def tokenAt (position : Position) (lexeme : Lexeme) : Token :=
  ⟨lexeme.kind, String.ofList lexeme.chars,
    ⟨position, position.right (lexeme.chars.length - 1)⟩⟩

/-- One token, and the cursor after it. -/
def next (cursor : Cursor) : Except SourceError Token × Cursor :=
  let cursor := skipBlanks cursor.text cursor.position
  match cursor.text with
  | [] => (.ok (endToken cursor.position), cursor)
  | c :: _ =>
    match Lexeme.next? cursor.text with
    | some (lexeme, rest) =>
      (.ok (tokenAt cursor.position lexeme),
        ⟨rest, cursor.position.right lexeme.chars.length⟩)
    | none => (.error (.unexpectedCharacter c (Span.single cursor.position)), cursor)

theorem length_skipBlanks (text : List Char) (position : Position) :
    (skipBlanks text position).text.length ≤ text.length := by
  induction text generalizing position with
  | nil => simp [skipBlanks]
  | cons c text ih =>
      unfold skipBlanks
      split
      · exact Nat.le_succ_of_le (ih _)
      · simp

/-- A token other than the end token takes at least one character. -/
theorem length_of_next {cursor after : Cursor} {token : Token}
    (heq : cursor.next = (.ok token, after)) (hkind : token.kind ≠ .eof) :
    after.text.length < cursor.text.length := by
  have hskip := length_skipBlanks cursor.text cursor.position
  unfold next at heq
  simp only at heq
  split at heq
  · simp only [Prod.mk.injEq, Except.ok.injEq] at heq
    exact absurd (heq.1 ▸ rfl) hkind
  · split at heq
    · next hfound =>
      simp only [Prod.mk.injEq] at heq
      rw [← heq.2]
      exact Nat.lt_of_lt_of_le (Lexeme.length_of_next? hfound) hskip
    · simp at heq

/-- The tokens up to the first end token, and the cursor after them.  When the
text cannot be read to its end there are no tokens, but what was read before
the bad character stays read. -/
def all (cursor : Cursor) : Except SourceError (List Token) × Cursor :=
  match heq : cursor.next with
  | (.error error, after) => (.error error, after)
  | (.ok token, after) =>
    if hkind : token.kind = .eof then (.ok [token], after)
    else
      have := length_of_next heq hkind
      let (tokens, last) := after.all
      (tokens.map (token :: ·), last)
termination_by cursor.text.length

end Cursor

/-- The tokens of a source.  The last one is the only end token. -/
def tokenize (source file : String) : Except SourceError (List Token) :=
  (Cursor.ofSource source file).all.1

end ClassLang
