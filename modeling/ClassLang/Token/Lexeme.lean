import ClassLang.Text.Letter
import ClassLang.Text.Lowercase
import ClassLang.Token.Kind

/-!
# Lexemes

`Lexeme.next?` finds the token text at the front of a text that does not start
with a blank: an operator, a word or a run of digits, each as long as possible.
It says which kind of token the text is and returns what follows it.
-/

namespace ClassLang

structure Lexeme where
  kind : Kind
  chars : List Char
  deriving DecidableEq, Repr

namespace Lexeme

def startsName (c : Char) : Bool :=
  c == '_' || Text.isLetter c

def continuesName (c : Char) : Bool :=
  startsName c || Text.isAsciiDigit c

/-- A word is a keyword when its lowercase form is one, and a name otherwise. -/
def kindOfWord (word : List Char) : Kind :=
  (Kind.keywords.lookup (String.ofList (word.map Text.lower))).getD .ident

/-- The operator at the front.  Of `!`, `&` and `|` only the doubled forms and
`!=` are operators. -/
def operator? : List Char → Option (Lexeme × List Char)
  | '=' :: '=' :: rest => some (⟨.equalsEquals, ['=', '=']⟩, rest)
  | '=' :: rest => some (⟨.equals, ['=']⟩, rest)
  | '!' :: '=' :: rest => some (⟨.notEquals, ['!', '=']⟩, rest)
  | '&' :: '&' :: rest => some (⟨.andAnd, ['&', '&']⟩, rest)
  | '|' :: '|' :: rest => some (⟨.orOr, ['|', '|']⟩, rest)
  | c :: rest => (Kind.ofSymbol? c).map fun kind => (⟨kind, [c]⟩, rest)
  | [] => none

def word? (text : List Char) : Option (Lexeme × List Char) :=
  if (text.head?.map startsName).getD false then
    let word := text.takeWhile continuesName
    some (⟨kindOfWord word, word⟩, text.dropWhile continuesName)
  else none

def integer? (text : List Char) : Option (Lexeme × List Char) :=
  if (text.head?.map Text.isAsciiDigit).getD false then
    some (⟨.int, text.takeWhile Text.isAsciiDigit⟩, text.dropWhile Text.isAsciiDigit)
  else none

def next? (text : List Char) : Option (Lexeme × List Char) :=
  operator? text <|> word? text <|> integer? text

/-- The lexeme and what follows it make up the text. -/
def Splits (text : List Char) (found : Lexeme × List Char) : Prop :=
  found.1.chars ≠ [] ∧ found.1.chars ++ found.2 = text

theorem splits_of_operator? {text : List Char} {found : Lexeme × List Char}
    (heq : operator? text = some found) : Splits text found := by
  unfold operator? at heq
  split at heq
  all_goals simp only [Option.map_eq_some_iff, Option.some.injEq, reduceCtorEq] at heq
  all_goals grind [Splits]

theorem splits_takeWhile {text : List Char} {kind : Kind} {first continues : Char → Bool}
    (hhead : (text.head?.map first).getD false = true)
    (hfirst : ∀ c, first c = true → continues c = true) :
    Splits text (⟨kind, text.takeWhile continues⟩, text.dropWhile continues) := by
  refine ⟨?_, List.takeWhile_append_dropWhile⟩
  cases text with
  | nil => simp at hhead
  | cons c text => simp [hfirst c (by simpa using hhead)]

theorem splits_of_word? {text : List Char} {found : Lexeme × List Char}
    (heq : word? text = some found) : Splits text found := by
  unfold word? at heq
  split at heq
  · next hhead =>
    simp only [Option.some.injEq] at heq
    exact heq ▸ splits_takeWhile hhead (by simp +contextual [continuesName])
  · simp at heq

theorem splits_of_integer? {text : List Char} {found : Lexeme × List Char}
    (heq : integer? text = some found) : Splits text found := by
  unfold integer? at heq
  split at heq
  · next hhead =>
    simp only [Option.some.injEq] at heq
    exact heq ▸ splits_takeWhile hhead (by simp)
  · simp at heq

/-- Nothing is lost or added when a lexeme is taken off a text, and a lexeme is
never empty. -/
theorem splits_of_next? {text : List Char} {found : Lexeme × List Char}
    (heq : next? text = some found) : Splits text found := by
  simp only [next?, Option.orElse_eq_orElse, Option.orElse_eq_or, Option.or_eq_some_iff] at heq
  rcases heq with heq | ⟨-, heq | ⟨-, heq⟩⟩
  · exact splits_of_operator? heq
  · exact splits_of_word? heq
  · exact splits_of_integer? heq

theorem length_of_next? {text rest : List Char} {lexeme : Lexeme}
    (heq : next? text = some (lexeme, rest)) : rest.length < text.length := by
  obtain ⟨hne, happend⟩ := splits_of_next? heq
  have hpos := List.length_pos_iff.mpr hne
  have hlength := congrArg List.length happend
  simp only [List.length_append] at hpos hlength
  omega

end Lexeme

end ClassLang
