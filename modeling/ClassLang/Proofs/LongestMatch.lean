import ClassLang.Proofs.Spelling

/-!
# Lexemes are as long as possible

Which texts are tokens can be said without a scanner: there is a list of
operators, and there are words and runs of digits.  The scanner finds the
longest such text at the front.  It only looks at the character behind a lexeme
to know that the lexeme ends there, and that character is told by the kind of
the lexeme alone.
-/

namespace ClassLang

/-- The kinds of words: names and keywords. -/
def Kind.words : List Kind :=
  .ident :: Kind.keywords.map Prod.snd

namespace Lexeme

def operators : List (List Char × Kind) :=
  [(['=', '='], .equalsEquals), (['='], .equals), (['!', '='], .notEquals),
   (['&', '&'], .andAnd), (['|', '|'], .orOr), (['+'], .plus), (['-'], .minus), (['*'], .star),
   (['/'], .slash), (['\x7b'], .openBrace), (['\x7d'], .closeBrace), (['('], .openParen),
   ([')'], .closeParen), ([','], .comma), ([';'], .semicolon), (['.'], .period)]

def isWord : List Char → Bool
  | [] => false
  | c :: chars => startsName c && chars.all continuesName

def isNumeral (chars : List Char) : Bool :=
  !chars.isEmpty && chars.all Text.isAsciiDigit

/-- A word that starts with a letter is a keyword when its lowercase form is
one.  All other words are names. -/
def wordKind : List Char → Kind
  | [] => .ident
  | c :: chars =>
    if Text.isLetter c then
      (Kind.keywords.lookup (String.ofList ((c :: chars).map Text.lower))).getD .ident
    else .ident

/-- The kind of token that a text is, taken as a whole. -/
def kindOf? (chars : List Char) : Option Kind :=
  if isWord chars then some (wordKind chars)
  else if isNumeral chars then some .int
  else operators.lookup chars

/-- Whether a lexeme of the given kind would take the character that follows
it. -/
def goesOn (kind : Kind) (c : Char) : Bool :=
  if kind ∈ Kind.words then continuesName c
  else if kind = .int then Text.isAsciiDigit c
  else kind = .equals && c = '='

/-! ## Texts and their kinds -/

/-- The kind of a word does not depend on how it was found. -/
theorem wordKind_eq_kindOfWord {c : Char} (chars : List Char) (hstart : startsName c = true) :
    wordKind (c :: chars) = kindOfWord (c :: chars) := by
  rw [wordKind]
  split
  · rfl
  · next hletter =>
    have hunderscore : c = '_' := by simpa [startsName, hletter] using hstart
    subst hunderscore
    -- No keyword starts with an underscore.
    cases hlookup : Kind.keywords.lookup (String.ofList (('_' :: chars).map Text.lower)) with
    | none => rw [kindOfWord, hlookup]; rfl
    | some kind =>
      obtain ⟨before, after, happend, -⟩ := List.lookup_eq_some_iff.mp hlookup
      have hall : Kind.keywords.all (·.1.toList.head? != some (Text.lower '_')) = true := by decide
      rw [happend] at hall
      simp at hall

theorem wordKind_mem_words {c : Char} {chars : List Char} (hstart : startsName c = true) :
    wordKind (c :: chars) ∈ Kind.words := by
  rw [wordKind_eq_kindOfWord chars hstart]
  rcases kindOfWord_eq_or_mem (c :: chars) with ⟨-, hident⟩ | hmem
  · rw [hident]
    exact List.mem_cons_self
  · exact List.mem_cons_of_mem _ hmem

/-- A token text is a word, a run of digits or an operator. -/
theorem kindOf?_cases {chars : List Char} {kind : Kind} (hkind : kindOf? chars = some kind) :
    (∃ c others, chars = c :: others ∧ startsName c = true ∧ others.all continuesName = true ∧
        kind = wordKind chars) ∨
      (chars ≠ [] ∧ (∀ c ∈ chars, Text.isAsciiDigit c = true) ∧ kind = .int) ∨
      (chars, kind) ∈ operators := by
  unfold kindOf? at hkind
  split at hkind
  · next hword =>
    cases chars with
    | nil => cases hword
    | cons c others =>
      rw [isWord, Bool.and_eq_true] at hword
      cases hkind
      exact .inl ⟨c, others, rfl, hword.1, hword.2, rfl⟩
  · split at hkind
    · next hnumeral =>
      simp only [isNumeral, Bool.and_eq_true, Bool.not_eq_true', List.isEmpty_eq_false_iff,
        List.all_eq_true] at hnumeral
      cases hkind
      exact .inr (.inl ⟨hnumeral.1, hnumeral.2, rfl⟩)
    · obtain ⟨before, after, happend, -⟩ := List.lookup_eq_some_iff.mp hkind
      rw [happend]
      exact .inr (.inr (List.mem_append_right _ List.mem_cons_self))

theorem kindOf?_word {c : Char} {chars : List Char} (hstart : startsName c = true)
    (hchars : chars.all continuesName = true) :
    kindOf? (c :: chars) = some (wordKind (c :: chars)) := by
  rw [kindOf?, isWord, hstart, hchars]
  rfl

theorem kindOf?_digits {chars : List Char} (hne : chars ≠ [])
    (hdigits : ∀ c ∈ chars, Text.isAsciiDigit c = true) : kindOf? chars = some .int := by
  obtain ⟨c, others, rfl⟩ := List.exists_cons_of_ne_nil hne
  have hstart := startsName_eq_false_of_isAsciiDigit (hdigits c List.mem_cons_self)
  have hnumeral : isNumeral (c :: others) = true := by
    rw [isNumeral, List.all_eq_true.mpr hdigits]
    rfl
  rw [kindOf?, isWord, hstart, hnumeral]
  rfl

theorem kindOf?_operator {chars : List Char} {kind : Kind} (hmem : (chars, kind) ∈ operators) :
    kindOf? chars = some kind := by
  have hall : operators.all (fun entry => kindOf? entry.1 == some entry.2) = true := by decide
  exact beq_iff_eq.mp (List.all_eq_true.mp hall _ hmem)

/-- A word goes on with every character that a name can have. -/
theorem goesOn_word {kind : Kind} (hkind : kind ∈ Kind.words) (c : Char) :
    goesOn kind c = continuesName c := by
  rw [goesOn, if_pos hkind]

/-- Behind an operator the scanner only looks for a second equals sign. -/
theorem goesOn_operator {chars : List Char} {kind : Kind} (hmem : (chars, kind) ∈ operators)
    (c : Char) : goesOn kind c = (kind = .equals && c = '=') := by
  have hall : operators.all (fun entry => entry.2 ∉ Kind.words && entry.2 ≠ .int) = true := by
    decide
  have hkind := List.all_eq_true.mp hall _ hmem
  simp only [Bool.and_eq_true, decide_eq_true_eq] at hkind
  rw [goesOn, if_neg hkind.1, if_neg hkind.2]

/-- No lexeme goes on with a blank. -/
theorem goesOn_eq_false_of_isBlank {c : Char} (hblank : Text.isBlank c = true) (kind : Kind) :
    goesOn kind c = false := by
  have hname : continuesName c = false := by
    cases heq : continuesName c with
    | false => rfl
    | true => exact hblank.symm.trans (isBlank_eq_false_of_continuesName heq)
  have hdigit : Text.isAsciiDigit c = false := by
    rw [continuesName, Bool.or_eq_false_iff] at hname
    exact hname.2
  have hsign : c ≠ '=' := by
    rintro rfl
    exact absurd hblank (by decide)
  simp [goesOn, hname, hdigit, hsign]

/-! ## The scanner and the character behind a lexeme -/

/-- What follows is not taken by a lexeme of the given kind. -/
def Ends (kind : Kind) (rest : List Char) : Prop :=
  ∀ c ∈ rest.head?, goesOn kind c = false

theorem not_head?_dropWhile {continues : Char → Bool} (text : List Char) :
    ∀ c ∈ (text.dropWhile continues).head?, continues c = false := by
  intro c hc
  have hnot := List.head?_dropWhile_not continues text
  rw [Option.mem_def.mp hc] at hnot
  exact hnot

/-- An operator is taken with its second character if it has one. -/
theorem ends_of_operator? {text rest : List Char} {lexeme : Lexeme}
    (heq : operator? text = some (lexeme, rest)) :
    (lexeme.chars, lexeme.kind) ∈ operators ∧ Ends lexeme.kind rest := by
  unfold operator? at heq
  split at heq
  case h_2 rest hnot =>
    cases heq
    have hmem : (['='], .equals) ∈ operators := by decide
    refine ⟨hmem, ?_⟩
    intro c hc
    have hsign : c ≠ '=' := by
      rintro rfl
      obtain ⟨others, rfl⟩ := List.head?_eq_some_iff.mp hc
      exact hnot others rfl
    simp [goesOn_operator hmem, hsign]
  case h_6 c others _ _ _ _ _ =>
    obtain ⟨kind, hkind, hfound⟩ := Option.map_eq_some_iff.mp heq
    cases hfound
    unfold Kind.ofSymbol? at hkind
    split at hkind
    all_goals cases hkind
    all_goals exact ⟨by decide, fun _ _ => rfl⟩
  case h_7 => cases heq
  all_goals
    cases heq
    exact ⟨by decide, fun _ _ => rfl⟩

theorem ends_of_word? {text rest : List Char} {lexeme : Lexeme}
    (heq : word? text = some (lexeme, rest)) :
    kindOf? lexeme.chars = some lexeme.kind ∧ Ends lexeme.kind rest := by
  obtain ⟨c, others, rfl, hstart, hlexeme⟩ := exists_cons_of_word? heq
  have hrest : (c :: others).dropWhile continuesName = rest := by
    simp only [word?, List.head?_cons, Option.map_some, hstart, Option.getD_some, if_true,
      Option.some.injEq, Prod.mk.injEq] at heq
    exact heq.2
  have hcontinues := continuesName_of_startsName hstart
  rw [List.takeWhile_cons_of_pos hcontinues, ← wordKind_eq_kindOfWord _ hstart] at hlexeme
  dsimp only at hlexeme
  subst hlexeme hrest
  refine ⟨kindOf?_word hstart List.all_takeWhile, ?_⟩
  intro d hd
  rw [goesOn_word (wordKind_mem_words hstart)]
  exact not_head?_dropWhile _ d hd

theorem ends_of_integer? {text rest : List Char} {lexeme : Lexeme}
    (heq : integer? text = some (lexeme, rest)) :
    kindOf? lexeme.chars = some lexeme.kind ∧ Ends lexeme.kind rest := by
  obtain ⟨c, others, rfl, hdigit, hlexeme⟩ := exists_cons_of_integer? heq
  have hrest : (c :: others).dropWhile Text.isAsciiDigit = rest := by
    simp only [integer?, List.head?_cons, Option.map_some, hdigit, Option.getD_some, if_true,
      Option.some.injEq, Prod.mk.injEq] at heq
    exact heq.2
  rw [List.takeWhile_cons_of_pos hdigit] at hlexeme
  dsimp only at hlexeme
  subst hlexeme hrest
  refine ⟨kindOf?_digits (List.cons_ne_nil _ _) ?_, not_head?_dropWhile _⟩
  exact List.forall_mem_cons.mpr ⟨hdigit, List.all_eq_true.mp List.all_takeWhile⟩

theorem next?_equals {rest : List Char} (hends : Ends .equals rest) :
    next? ('=' :: rest) = some (⟨.equals, ['=']⟩, rest) := by
  have hoperator : operator? ('=' :: rest) = some (⟨.equals, ['=']⟩, rest) := by
    rw [operator?.eq_2]
    rintro others rfl
    exact absurd (hends '=' rfl) (by decide)
  rw [next?, hoperator]
  rfl

/-- An operator is found if it ends where it should. -/
theorem next?_operator {chars rest : List Char} {kind : Kind}
    (hmem : (chars, kind) ∈ operators) (hends : Ends kind rest) :
    next? (chars ++ rest) = some (⟨kind, chars⟩, rest) := by
  have hothers : ∀ entry ∈ operators, entry = (['='], .equals) ∨
      next? (entry.1 ++ rest) = some (⟨entry.2, entry.1⟩, rest) := by
    simp only [operators, List.forall_mem_cons]
    refine ⟨.inr rfl, by simp, ?_⟩
    repeat' apply And.intro
    all_goals first | exact .inr rfl | exact List.forall_mem_nil _
  rcases hothers _ hmem with heq | hnext
  · cases heq
    exact next?_equals hends
  · exact hnext

/-- The scanner takes a lexeme off a text exactly when the lexeme is a token
text of its kind and the next character does not go on with it. -/
theorem next?_eq_some_iff {text rest : List Char} {lexeme : Lexeme} :
    next? text = some (lexeme, rest) ↔
      lexeme.chars ++ rest = text ∧ kindOf? lexeme.chars = some lexeme.kind ∧
        Ends lexeme.kind rest := by
  constructor
  · intro heq
    refine ⟨(splits_of_next? heq).2, ?_⟩
    simp only [next?, Option.orElse_eq_orElse, Option.orElse_eq_or, Option.or_eq_some_iff] at heq
    rcases heq with heq | ⟨-, heq | ⟨-, heq⟩⟩
    · obtain ⟨hmem, hends⟩ := ends_of_operator? heq
      exact ⟨kindOf?_operator hmem, hends⟩
    · exact ends_of_word? heq
    · exact ends_of_integer? heq
  · rintro ⟨rfl, hkind, hends⟩
    rcases kindOf?_cases hkind with ⟨c, others, hchars, hstart, hothers, hword⟩ |
      ⟨hne, hdigits, hint⟩ | hmem
    · have hmem : lexeme.kind ∈ Kind.words := by
        rw [hword, hchars]
        exact wordKind_mem_words hstart
      have hboundary : Boundary rest := by
        intro c hc
        rw [← goesOn_word hmem, hends c hc]
      obtain ⟨kind, chars⟩ := lexeme
      cases hchars
      rw [wordKind_eq_kindOfWord others hstart] at hword
      cases hword
      exact next?_word hstart hothers hboundary
    · obtain ⟨kind, chars⟩ := lexeme
      cases hint
      exact next?_digits hne hdigits hends
    · exact next?_operator hmem hends

/-! ## Longest token texts -/

/-- The first character of a token text tells a word, a run of digits and an
operator apart. -/
theorem kindOf?_first {c : Char} {chars : List Char} {kind : Kind}
    (hkind : kindOf? (c :: chars) = some kind) :
    (startsName c = true ∧ chars.all continuesName = true ∧ kind ∈ Kind.words) ∨
      (Text.isAsciiDigit c = true ∧ chars.all Text.isAsciiDigit = true ∧ kind = .int) ∨
      (c ∈ operatorChars ∧ (c :: chars, kind) ∈ operators) := by
  rcases kindOf?_cases hkind with ⟨_, _, hcons, hstart, hothers, rfl⟩ | ⟨-, hdigits, rfl⟩ | hmem
  · obtain ⟨rfl, rfl⟩ := List.cons.inj hcons
    exact .inl ⟨hstart, hothers, wordKind_mem_words hstart⟩
  · rw [List.forall_mem_cons] at hdigits
    exact .inr (.inl ⟨hdigits.1, List.all_eq_true.mpr hdigits.2, rfl⟩)
  · have hall : operators.all (fun entry => entry.1.head?.all (· ∈ operatorChars)) = true := by
      decide
    have hfirst := List.all_eq_true.mp hall _ hmem
    exact .inr (.inr ⟨by simpa using hfirst, hmem⟩)

theorem not_mem_operatorChars_of_continuesName {c : Char} (hname : continuesName c = true) :
    c ∉ operatorChars := by
  intro hmem
  rw [continuesName_eq_false_of_mem_operatorChars c hmem] at hname
  cases hname

/-- A token text can only be made longer by a character that goes on with it. -/
theorem goesOn_of_kindOf?_append {chars more : List Char} {c : Char} {kind longer : Kind}
    (hkind : kindOf? chars = some kind) (hlonger : kindOf? (chars ++ c :: more) = some longer) :
    goesOn kind c = true := by
  cases chars with
  | nil => cases hkind
  | cons first others =>
    rcases kindOf?_first hkind with ⟨hstart, -, hword⟩ | ⟨hdigit, -, rfl⟩ | ⟨hfirst, hmem⟩
    · have hname := continuesName_of_startsName hstart
      rcases kindOf?_first hlonger with ⟨-, hall, -⟩ | ⟨hdigit, -, -⟩ | ⟨hfirst, -⟩
      · rw [goesOn_word hword]
        exact List.all_eq_true.mp hall c (by simp)
      · rw [startsName_eq_false_of_isAsciiDigit hdigit] at hstart
        cases hstart
      · exact absurd hfirst (not_mem_operatorChars_of_continuesName hname)
    · have hname := continuesName_of_isAsciiDigit hdigit
      rcases kindOf?_first hlonger with ⟨hstart, -, -⟩ | ⟨-, hall, -⟩ | ⟨hfirst, -⟩
      · rw [startsName_eq_false_of_isAsciiDigit hdigit] at hstart
        cases hstart
      · exact List.all_eq_true.mp hall c (by simp)
      · exact absurd hfirst (not_mem_operatorChars_of_continuesName hname)
    · rcases kindOf?_first hlonger with ⟨hstart, -, -⟩ | ⟨hdigit, -, -⟩ | ⟨-, hother⟩
      · exact absurd hfirst (not_mem_operatorChars_of_continuesName
          (continuesName_of_startsName hstart))
      · exact absurd hfirst (not_mem_operatorChars_of_continuesName
          (continuesName_of_isAsciiDigit hdigit))
      · -- Only one operator is the beginning of another one.
        have hall : operators.all (fun entry => operators.all fun other =>
            !decide (entry.1 <+: other.1) || entry.1 == other.1 ||
              goesOn entry.2 ((other.1.drop entry.1.length).headD ' ')) = true := by decide
        have hpair := List.all_eq_true.mp (List.all_eq_true.mp hall _ hmem) _ hother
        simpa using hpair

/-- No token text at the front is longer than one that the next character does
not go on with. -/
theorem length_le_of_ends {chars rest other : List Char} {kind : Kind}
    (hkind : kindOf? chars = some kind) (hends : Ends kind rest)
    (hfront : other <+: chars ++ rest) (hother : (kindOf? other).isSome) :
    other.length ≤ chars.length := by
  apply Nat.le_of_not_lt
  intro hlonger
  obtain ⟨more, rfl⟩ : chars <+: other :=
    List.prefix_of_prefix_length_le (List.prefix_append chars rest) hfront (Nat.le_of_lt hlonger)
  rw [List.prefix_append_right_inj] at hfront
  cases more with
  | nil => simp at hlonger
  | cons c more =>
    obtain ⟨after, rfl⟩ := hfront
    obtain ⟨longer, hlonger⟩ := Option.isSome_iff_exists.mp hother
    have htrue := goesOn_of_kindOf?_append hkind hlonger
    rw [hends c rfl] at htrue
    cases htrue

end Lexeme

/-! ## Lexemes that would run into each other -/

/-- Two tokens that cannot stand next to each other without a blank: words and
what goes on with a word, two numbers, and an equals sign before another one. -/
def Kind.Glues (left right : Kind) : Prop :=
  (left ∈ words ∧ (right ∈ words ∨ right = .int)) ∨ (left = .int ∧ right = .int) ∨
    (left = .equals ∧ (right = .equals ∨ right = .equalsEquals))

instance (left right : Kind) : Decidable (left.Glues right) :=
  inferInstanceAs (Decidable (_ ∨ _ ∨ _))

/-- What the first character of a token text says about its kind. -/
theorem Lexeme.kind_of_first {c : Char} {chars : List Char} {kind : Kind}
    (hkind : kindOf? (c :: chars) = some kind) :
    (continuesName c = true ↔ kind ∈ Kind.words ∨ kind = .int) ∧
      (Text.isAsciiDigit c = true ↔ kind = .int) ∧
      (c = '=' ↔ kind = .equals ∨ kind = .equalsEquals) := by
  have hsign : continuesName c = true → c ≠ '=' := by
    rintro hname rfl
    exact absurd hname (by decide)
  rcases kindOf?_first hkind with ⟨hstart, -, hword⟩ | ⟨hdigit, -, rfl⟩ | ⟨hfirst, hmem⟩
  · have hname := continuesName_of_startsName hstart
    have hdigit : ¬Text.isAsciiDigit c = true := by
      intro hdigit
      rw [startsName_eq_false_of_isAsciiDigit hdigit] at hstart
      cases hstart
    have hkinds : kind ≠ .int ∧ kind ≠ .equals ∧ kind ≠ .equalsEquals := by
      refine ⟨?_, ?_, ?_⟩ <;> rintro rfl <;> exact absurd hword (by decide)
    simp [hname, hword, hdigit, hsign hname, hkinds]
  · have hname := continuesName_of_isAsciiDigit hdigit
    simp [hname, hdigit, hsign hname]
  · have hname := continuesName_eq_false_of_mem_operatorChars c hfirst
    have hdigit : ¬Text.isAsciiDigit c = true := by
      intro hdigit
      rw [continuesName_of_isAsciiDigit hdigit] at hname
      cases hname
    have hall : operators.all (fun entry => entry.2 ∉ Kind.words && entry.2 ≠ .int &&
        (entry.1.head? = some '=') == (entry.2 ∈ [.equals, .equalsEquals])) = true := by decide
    have hentry := List.all_eq_true.mp hall _ hmem
    simp only [Bool.and_eq_true, decide_eq_true_eq, beq_iff_eq, decide_eq_decide,
      List.head?_cons, Option.some.injEq, List.mem_cons, List.not_mem_nil, or_false] at hentry
    simp [hname, hdigit, hentry]

/-- The first character of the right lexeme decides whether two lexemes would
run into each other. -/
theorem Lexeme.goesOn_first_iff {c : Char} {chars : List Char} {left right : Kind}
    (hright : kindOf? (c :: chars) = some right) : goesOn left c = true ↔ left.Glues right := by
  have hint : Kind.int ∉ Kind.words := by decide
  have hequals : Kind.equals ∉ Kind.words := by decide
  obtain ⟨hname, hdigit, hsign⟩ := kind_of_first hright
  unfold goesOn Kind.Glues
  split
  · next hword =>
    have hnotInt : left ≠ .int := fun heq => hint (heq ▸ hword)
    have hnotSign : left ≠ .equals := fun heq => hequals (heq ▸ hword)
    simp [hword, hnotInt, hnotSign, hname]
  · next hword =>
    split
    · next hleft => simp [hint, hleft, hdigit]
    · next hleft => simp [hword, hleft, hsign]

end ClassLang
