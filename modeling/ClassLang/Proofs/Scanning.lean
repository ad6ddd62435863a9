import ClassLang.Proofs.Grammar
import ClassLang.Token.Cursor

/-!
# Scanning as a relation

`Scans text lexemes rest` says that the front of a text is made of the given
lexemes and of blanks.  The rest is part of the statement, so that a lexeme is
always as long as it is in the whole text and statements about neighbouring
pieces can be put together.  `tokenize` succeeds exactly when the whole text is
scanned, and it returns the same lexemes with their places.
-/

namespace ClassLang

/-! ## Classes of characters

Blanks, names, digits and operators start with different characters, so at most
one rule of the scanner applies anywhere.
-/

namespace Text

/-- No range of one table meets a range of the other. -/
def CodeTable.Apart (left right : CodeTable) : Prop :=
  ∀ range ∈ left, ∀ other ∈ right, range.2 < other.1 ∨ other.2 < range.1

instance (left right : CodeTable) : Decidable (CodeTable.Apart left right) :=
  inferInstanceAs (Decidable (∀ range ∈ left, ∀ other ∈ right, _))

/-- No code is in two tables that are apart. -/
theorem CodeTable.containsCode_eq_false_of_apart {left right : CodeTable}
    (hapart : CodeTable.Apart left right) {code first last : Nat}
    (hrange : (first, last) ∈ left) (hfirst : first ≤ code) (hlast : code ≤ last) :
    right.containsCode code = false := by
  apply Bool.eq_false_iff.mpr
  intro hmem
  obtain ⟨other, hother, hbounds⟩ := exists_range_of_containsCode hmem
  have hdisjoint := hapart _ hrange _ hother
  simp only at hdisjoint
  omega

/-- Blanks and letters are in different tables. -/
theorem isLetter_eq_false_of_isBlank {c : Char} (hblank : isBlank c = true) :
    isLetter c = false := by
  obtain ⟨range, hrange, hfirst, hlast⟩ := CodeTable.exists_range_of_containsCode hblank
  have hapart : CodeTable.Apart blankTable letterTable := by decide +kernel
  exact CodeTable.containsCode_eq_false_of_apart hapart hrange hfirst hlast

theorem toNat_of_isAsciiDigit {c : Char} (hdigit : isAsciiDigit c = true) :
    0x30 ≤ c.toNat ∧ c.toNat ≤ 0x39 := by
  simp only [isAsciiDigit, Bool.and_eq_true, decide_eq_true_eq] at hdigit
  exact hdigit

theorem isLetter_eq_false_of_isAsciiDigit {c : Char} (hdigit : isAsciiDigit c = true) :
    isLetter c = false := by
  obtain ⟨hfirst, hlast⟩ := toNat_of_isAsciiDigit hdigit
  have hapart : CodeTable.Apart [(0x30, 0x39)] letterTable := by decide +kernel
  exact CodeTable.containsCode_eq_false_of_apart hapart (by simp) hfirst hlast

theorem isBlank_eq_false_of_isAsciiDigit {c : Char} (hdigit : isAsciiDigit c = true) :
    isBlank c = false := by
  obtain ⟨hfirst, hlast⟩ := toNat_of_isAsciiDigit hdigit
  have hapart : CodeTable.Apart [(0x30, 0x39)] blankTable := by decide
  exact CodeTable.containsCode_eq_false_of_apart hapart (by simp) hfirst hlast

/-- Without a sign in front, the sign does not matter. -/
theorem readInt?_of_digits {digits : List Char} (hdigits : digits.all isAsciiDigit = true) :
    readInt? digits = (readNat? digits).map Int.ofNat := by
  unfold readInt?
  split
  · exact absurd hdigits (by simp [isAsciiDigit])
  · exact absurd hdigits (by simp [isAsciiDigit])
  · cases readNat? digits <;> rfl

theorem all_isAsciiDigit_of_readNat? {digits : List Char} {value : Nat}
    (heq : readNat? digits = some value) : digits.all isAsciiDigit = true := by
  unfold readNat? at heq
  split at heq
  · cases heq
  · next hdigits => simp_all

/-- A run of digits is a literal exactly when its value is below the limit. -/
theorem readInt64?_eq_some_iff {text : String} (hdigits : text.toList.all isAsciiDigit = true)
    {value : Int} :
    readInt64? text = some value ↔
      ∃ n : Nat, readNat? text.toList = some n ∧ n < signedLimit ∧ value = n := by
  rw [readInt64?, readInt?_of_digits hdigits]
  cases readNat? text.toList with
  | none => simp
  | some n =>
    simp only [Option.map_some, Option.filter_some, Option.ite_none_right_eq_some,
      Bool.and_eq_true, decide_eq_true_eq, Option.some.injEq, exists_eq_left', Int.ofNat_eq_natCast]
    omega

end Text

namespace Lexeme

/-- The characters with which an operator can start. -/
def operatorChars : List Char :=
  ['=', '!', '&', '|', '+', '-', '*', '/', '\x7b', '\x7d', '(', ')', ',', ';', '.']

theorem isBlank_eq_false_of_continuesName {c : Char} (hname : continuesName c = true) :
    Text.isBlank c = false := by
  apply Bool.eq_false_iff.mpr
  intro hblank
  have hletter := Text.isLetter_eq_false_of_isBlank hblank
  simp only [continuesName, startsName, hletter, Bool.or_false, Bool.or_eq_true, beq_iff_eq]
    at hname
  rcases hname with rfl | hdigit
  · exact absurd hblank (by decide)
  · rw [Text.isBlank_eq_false_of_isAsciiDigit hdigit] at hblank
    exact absurd hblank (by decide)

theorem startsName_eq_false_of_isAsciiDigit {c : Char} (hdigit : Text.isAsciiDigit c = true) :
    startsName c = false := by
  have hletter := Text.isLetter_eq_false_of_isAsciiDigit hdigit
  have hne : c ≠ '_' := by
    rintro rfl
    exact absurd hdigit (by decide)
  simp [startsName, hletter, hne]

theorem continuesName_of_startsName {c : Char} (hstart : startsName c = true) :
    continuesName c = true := by
  simp [continuesName, hstart]

theorem continuesName_of_isAsciiDigit {c : Char} (hdigit : Text.isAsciiDigit c = true) :
    continuesName c = true := by
  simp [continuesName, hdigit]

/-- An operator starts with one of a few characters. -/
theorem mem_operatorChars_of_operator? {c : Char} {text : List Char}
    {found : Lexeme × List Char} (heq : operator? (c :: text) = some found) :
    c ∈ operatorChars := by
  unfold operator? at heq
  split at heq
  case h_6 =>
    obtain ⟨kind, hkind, -⟩ := Option.map_eq_some_iff.mp heq
    unfold Kind.ofSymbol? at hkind
    split at hkind <;> simp_all [operatorChars]
  all_goals simp_all [operatorChars]

theorem continuesName_eq_false_of_mem_operatorChars :
    ∀ c ∈ operatorChars, continuesName c = false := by
  have hall : operatorChars.all (!continuesName ·) = true := by decide
  intro c hmem
  simpa using List.all_eq_true.mp hall c hmem

theorem isBlank_eq_false_of_mem_operatorChars :
    ∀ c ∈ operatorChars, Text.isBlank c = false := by
  have hall : operatorChars.all (!Text.isBlank ·) = true := by decide
  intro c hmem
  simpa using List.all_eq_true.mp hall c hmem

/-- A name or a number does not start with an operator. -/
theorem operator?_eq_none_of_continuesName {c : Char} {text : List Char}
    (hname : continuesName c = true) : operator? (c :: text) = none := by
  cases heq : operator? (c :: text) with
  | none => rfl
  | some found =>
    have hfalse := continuesName_eq_false_of_mem_operatorChars c
      (mem_operatorChars_of_operator? heq)
    rw [hname] at hfalse
    exact absurd hfalse (by decide)

/-- A word starts like a name and goes on as long as it can. -/
theorem exists_cons_of_word? {text : List Char} {found : Lexeme × List Char}
    (heq : word? text = some found) :
    ∃ c chars, text = c :: chars ∧ startsName c = true ∧
      found.1 = ⟨kindOfWord (text.takeWhile continuesName), text.takeWhile continuesName⟩ := by
  cases text with
  | nil => simp [word?] at heq
  | cons c chars =>
    cases hstart : startsName c with
    | false => simp [word?, hstart] at heq
    | true =>
      simp only [word?, List.head?_cons, Option.map_some, hstart, Option.getD_some, if_true,
        Option.some.injEq] at heq
      exact ⟨c, chars, rfl, hstart, heq ▸ rfl⟩

/-- An integer is all the digits there are. -/
theorem exists_cons_of_integer? {text : List Char} {found : Lexeme × List Char}
    (heq : integer? text = some found) :
    ∃ c chars, text = c :: chars ∧ Text.isAsciiDigit c = true ∧
      found.1 = ⟨.int, text.takeWhile Text.isAsciiDigit⟩ := by
  cases text with
  | nil => simp [integer?] at heq
  | cons c chars =>
    cases hdigit : Text.isAsciiDigit c with
    | false => simp [integer?, hdigit] at heq
    | true =>
      simp only [integer?, List.head?_cons, Option.map_some, hdigit, Option.getD_some, if_true,
        Option.some.injEq] at heq
      exact ⟨c, chars, rfl, hdigit, heq ▸ rfl⟩

/-- No lexeme starts with a blank. -/
theorem isBlank_eq_false_of_next? {c : Char} {text : List Char} {found : Lexeme × List Char}
    (heq : next? (c :: text) = some found) : Text.isBlank c = false := by
  simp only [next?, Option.orElse_eq_orElse, Option.orElse_eq_or, Option.or_eq_some_iff] at heq
  rcases heq with heq | ⟨-, heq | ⟨-, heq⟩⟩
  · exact isBlank_eq_false_of_mem_operatorChars c (mem_operatorChars_of_operator? heq)
  · obtain ⟨c, chars, hcons, hstart, -⟩ := exists_cons_of_word? heq
    obtain ⟨rfl, rfl⟩ := List.cons.inj hcons
    exact isBlank_eq_false_of_continuesName (continuesName_of_startsName hstart)
  · obtain ⟨c, chars, hcons, hdigit, -⟩ := exists_cons_of_integer? heq
    obtain ⟨rfl, rfl⟩ := List.cons.inj hcons
    exact Text.isBlank_eq_false_of_isAsciiDigit hdigit

/-! ## Names and numbers -/

/-- What a program can use as a name: a word that is no keyword in any mix of
cases. -/
def isName (text : String) : Bool :=
  match text.toList with
  | [] => false
  | c :: chars =>
    startsName c && chars.all continuesName
      && (Kind.keywords.lookup (String.ofList ((c :: chars).map Text.lower))).isNone

/-- The text of a lexeme fits its kind: names are names, and numbers are runs of
digits. -/
structure Proper (lexeme : Lexeme) : Prop where
  name : lexeme.kind = .ident → isName lexeme.text = true
  digits : lexeme.kind = .int → lexeme.chars.all Text.isAsciiDigit = true

/-- What the scanner promises about its lexemes: they are proper, and none is an
end token. -/
structure Genuine (lexeme : Lexeme) : Prop extends lexeme.Proper where
  notEnd : lexeme.kind ≠ .eof

/-- A word is a keyword, in small or capital letters, or else an identifier. -/
theorem kindOfWord_eq_or_mem (word : List Char) :
    (Kind.keywords.lookup (String.ofList (word.map Text.lower)) = none ∧
        kindOfWord word = .ident) ∨
      kindOfWord word ∈ Kind.keywords.map Prod.snd := by
  cases hlookup : Kind.keywords.lookup (String.ofList (word.map Text.lower)) with
  | none => exact .inl ⟨rfl, by simp [kindOfWord, hlookup]⟩
  | some kind =>
    obtain ⟨before, after, happend, -⟩ := List.lookup_eq_some_iff.mp hlookup
    have hmem : (String.ofList (word.map Text.lower), kind) ∈ Kind.keywords := by
      rw [happend]
      exact List.mem_append_right _ List.mem_cons_self
    exact .inr (List.mem_map.mpr ⟨_, hmem, by simp [kindOfWord, hlookup]⟩)

theorem lookup_eq_none_of_kindOfWord {word : List Char} (hkind : kindOfWord word = .ident) :
    Kind.keywords.lookup (String.ofList (word.map Text.lower)) = none := by
  rcases kindOfWord_eq_or_mem word with ⟨hnone, -⟩ | hmem
  · exact hnone
  · rw [hkind] at hmem
    exact absurd hmem (by decide)

theorem kindOfWord_ne {kind : Kind} (hkind : kind ∉ .ident :: Kind.keywords.map Prod.snd)
    (word : List Char) : kindOfWord word ≠ kind := by
  rintro rfl
  rcases kindOfWord_eq_or_mem word with ⟨-, hident⟩ | hmem
  · exact hkind (hident ▸ List.mem_cons_self)
  · exact hkind (List.mem_cons_of_mem _ hmem)

theorem genuine_of_operator? {text : List Char} {found : Lexeme × List Char}
    (heq : operator? text = some found) : found.1.Genuine := by
  have hkind : found.1.kind ≠ .eof ∧ found.1.kind ≠ .ident ∧ found.1.kind ≠ .int := by
    unfold operator? at heq
    split at heq
    case h_6 =>
      obtain ⟨kind, hkind, rfl⟩ := Option.map_eq_some_iff.mp heq
      unfold Kind.ofSymbol? at hkind
      split at hkind <;> simp_all <;> simp [← hkind]
    all_goals simp_all <;> simp [← heq]
  exact ⟨⟨fun hname => absurd hname hkind.2.1, fun hint => absurd hint hkind.2.2⟩, hkind.1⟩

theorem genuine_of_word? {text : List Char} {found : Lexeme × List Char}
    (heq : word? text = some found) : found.1.Genuine := by
  obtain ⟨c, chars, rfl, hstart, hfound⟩ := exists_cons_of_word? heq
  have hcontinues := continuesName_of_startsName hstart
  rw [hfound]
  refine ⟨⟨fun hkind => ?_, fun hkind => absurd hkind (kindOfWord_ne (by decide) _)⟩,
    kindOfWord_ne (by decide) _⟩
  have hnone := lookup_eq_none_of_kindOfWord hkind
  simp only [List.takeWhile_cons, hcontinues, if_true] at hnone
  simp only [isName, Lexeme.text, String.toList_ofList, List.takeWhile_cons, hcontinues,
    if_true, hstart, List.all_takeWhile, hnone, Option.isNone_none, Bool.and_self]

theorem genuine_of_integer? {text : List Char} {found : Lexeme × List Char}
    (heq : integer? text = some found) : found.1.Genuine := by
  obtain ⟨c, chars, rfl, hdigit, hfound⟩ := exists_cons_of_integer? heq
  rw [hfound]
  exact ⟨⟨fun hkind => absurd hkind (by simp), fun _ => List.all_takeWhile⟩, by simp⟩

/-- What is scanned next is genuine, whichever way it was found. -/
theorem genuine_of_next? {text : List Char} {found : Lexeme × List Char}
    (heq : next? text = some found) : found.1.Genuine := by
  simp only [next?, Option.orElse_eq_orElse, Option.orElse_eq_or, Option.or_eq_some_iff] at heq
  rcases heq with heq | ⟨-, heq | ⟨-, heq⟩⟩
  · exact genuine_of_operator? heq
  · exact genuine_of_word? heq
  · exact genuine_of_integer? heq

end Lexeme

/-! ## The relation -/

inductive Scans : List Char → List Lexeme → List Char → Prop
  | done (rest : List Char) : Scans rest [] rest
  | blank {c : Char} {text rest : List Char} {lexemes : List Lexeme} :
      Text.isBlank c = true → Scans text lexemes rest → Scans (c :: text) lexemes rest
  | lexeme {text after rest : List Char} {lexeme : Lexeme} {lexemes : List Lexeme} :
      Lexeme.next? text = some (lexeme, after) → Scans after lexemes rest →
      Scans text (lexeme :: lexemes) rest

/-- A text can be scanned in two parts. -/
theorem Scans.append {text middle rest : List Char} {first last : List Lexeme}
    (hfirst : Scans text first middle) (hlast : Scans middle last rest) :
    Scans text (first ++ last) rest := by
  induction hfirst with
  | done => exact hlast
  | blank hblank _ ih => exact .blank hblank (ih hlast)
  | lexeme hnext _ ih => exact .lexeme hnext (ih hlast)

/-- All lexemes that are scanned are genuine. -/
theorem Scans.genuine {text rest : List Char} {lexemes : List Lexeme}
    (hscans : Scans text lexemes rest) : ∀ lexeme ∈ lexemes, lexeme.Genuine := by
  induction hscans with
  | done => simp
  | blank _ _ ih => exact ih
  | lexeme hnext _ ih => exact List.forall_mem_cons.mpr ⟨Lexeme.genuine_of_next? hnext, ih⟩

theorem Scans.proper {text rest : List Char} {lexemes : List Lexeme}
    (hscans : Scans text lexemes rest) : ∀ lexeme ∈ lexemes, lexeme.Proper :=
  fun lexeme hmem => (hscans.genuine lexeme hmem).toProper

/-! ## Scanning and the cursor -/

namespace Cursor

theorem scans_skipBlanks (text : List Char) (position : Position) :
    Scans text [] (skipBlanks text position).text := by
  induction text generalizing position with
  | nil => exact .done []
  | cons c text ih =>
      unfold skipBlanks
      split
      · next hblank => exact .blank hblank (ih _)
      · exact .done _

@[simp]
theorem toLexeme_tokenAt (position : Position) (lexeme : Lexeme) :
    (tokenAt position lexeme).toLexeme = lexeme := by
  simp [tokenAt, Token.toLexeme]

/-- One call reads the end of the text, or one lexeme. -/
theorem next_eq_ok {cursor after : Cursor} {token : Token}
    (heq : cursor.next = (.ok token, after)) :
    (token.kind = .eof ∧ Scans cursor.text [] []) ∨
      (token.kind ≠ .eof ∧ Scans cursor.text [token.toLexeme] after.text) := by
  have hskip := scans_skipBlanks cursor.text cursor.position
  unfold next at heq
  simp only at heq
  split at heq
  · next hnil =>
    simp only [Prod.mk.injEq, Except.ok.injEq] at heq
    rw [hnil] at hskip
    exact .inl ⟨heq.1 ▸ rfl, hskip⟩
  · split at heq
    · next lexeme rest hnext =>
      simp only [Prod.mk.injEq, Except.ok.injEq] at heq
      obtain ⟨rfl, rfl⟩ := heq
      rw [toLexeme_tokenAt]
      exact .inr ⟨(Lexeme.genuine_of_next? hnext).notEnd,
        hskip.append (.lexeme hnext (.done rest))⟩
    · simp at heq

/-- All tokens of a cursor: the next one, and then those after it, up to the end or the
first fault. -/
theorem all_eq (cursor : Cursor) :
    cursor.all =
      match cursor.next with
      | (.error error, after) => (.error error, after)
      | (.ok token, after) =>
        if token.kind = .eof then (.ok [token], after)
        else (after.all.1.map (token :: ·), after.all.2) := by
  rw [all]
  split
  · next heq => simp only [heq]
  · next heq =>
    simp only [heq]
    split <;> rfl

/-- A blank in front makes no difference but for the position. -/
theorem next_blank {c : Char} (hblank : Text.isBlank c = true) (text : List Char)
    (position : Position) :
    next ⟨c :: text, position⟩ = next ⟨text, position.after c⟩ := by
  simp only [next, skipBlanks, hblank, if_true]

/-- The next token is made of the lexeme in front. -/
theorem next_lexeme {text after : List Char} {lexeme : Lexeme}
    (hnext : Lexeme.next? text = some (lexeme, after)) (position : Position) :
    next ⟨text, position⟩ =
      (.ok (tokenAt position lexeme), ⟨after, position.right lexeme.chars.length⟩) := by
  cases text with
  | nil => simp [Lexeme.next?, Lexeme.operator?, Lexeme.word?, Lexeme.integer?] at hnext
  | cons c text =>
    have hblank := Lexeme.isBlank_eq_false_of_next? hnext
    simp only [next, skipBlanks, hblank, Bool.false_eq_true, if_false, hnext]

/-- A character that starts no lexeme is reported, and the cursor stays there. -/
theorem next_fault {c : Char} {text : List Char} (hblank : Text.isBlank c = false)
    (hnone : Lexeme.next? (c :: text) = none) (position : Position) :
    next ⟨c :: text, position⟩ =
      (.error (.unexpectedCharacter c (Span.single position)), ⟨c :: text, position⟩) := by
  simp only [next, skipBlanks, hblank, Bool.false_eq_true, if_false, hnone]

end Cursor

/-- The tokens hold the given lexemes and then one end token. -/
def Token.Enclose (tokens : List Token) (lexemes : List Lexeme) : Prop :=
  ∃ body stop, tokens = body ++ [stop] ∧ stop.kind = .eof ∧ body.map Token.toLexeme = lexemes

theorem Token.Enclose.cons {tokens : List Token} {lexemes : List Lexeme}
    (henclose : Token.Enclose tokens lexemes) (token : Token) :
    Token.Enclose (token :: tokens) (token.toLexeme :: lexemes) := by
  obtain ⟨body, stop, rfl, hstop, rfl⟩ := henclose
  exact ⟨token :: body, stop, rfl, hstop, rfl⟩

namespace Cursor

/-- The tokens of a cursor are the lexemes of its text. -/
theorem scans_of_all {cursor : Cursor} {tokens : List Token}
    (heq : cursor.all.1 = .ok tokens) :
    ∃ lexemes, Scans cursor.text lexemes [] ∧ Token.Enclose tokens lexemes := by
  fun_induction Cursor.all cursor generalizing tokens with
  | case1 => simp at heq
  | case2 cursor token after hnext hkind =>
    simp only [Except.ok.injEq] at heq
    subst heq
    rcases next_eq_ok hnext with ⟨-, hscans⟩ | ⟨hother, -⟩
    · exact ⟨[], hscans, [], token, rfl, hkind, rfl⟩
    · exact absurd hkind hother
  | case3 cursor token after hnext hkind hlength read last hall ih =>
    rw [hall] at ih
    cases hread : read with
    | error error => simp [hread, Except.map] at heq
    | ok others =>
      simp only [hread, Except.map, Except.ok.injEq] at heq
      subst heq
      obtain ⟨lexemes, hothers, henclose⟩ := ih hread
      rcases next_eq_ok hnext with ⟨hend, -⟩ | ⟨-, hscans⟩
      · exact absurd hend hkind
      · exact ⟨_, hscans.append hothers, henclose.cons token⟩

/-- Every text that can be scanned has its tokens, wherever it starts. -/
theorem all_of_scans {text : List Char} {lexemes : List Lexeme}
    (hscans : Scans text lexemes []) (position : Position) :
    ∃ tokens, (all ⟨text, position⟩).1 = .ok tokens ∧ Token.Enclose tokens lexemes := by
  generalize hrest : ([] : List Char) = rest at hscans
  induction hscans generalizing position with
  | done =>
    subst hrest
    exact ⟨[endToken position], by rw [all_eq]; rfl, [], endToken position, rfl, rfl, rfl⟩
  | blank hblank _ ih =>
    rw [all_eq, next_blank hblank, ← all_eq]
    exact ih _ hrest
  | @lexeme text after rest lexeme lexemes hnext _ ih =>
    obtain ⟨tokens, hall, henclose⟩ := ih (position.right lexeme.chars.length) hrest
    have hkind : (tokenAt position lexeme).kind ≠ .eof :=
      (Lexeme.genuine_of_next? hnext).notEnd
    have henclosed := henclose.cons (tokenAt position lexeme)
    rw [toLexeme_tokenAt] at henclosed
    rw [all_eq, next_lexeme hnext]
    refine ⟨tokenAt position lexeme :: tokens, ?_, henclosed⟩
    simp only [hkind, if_false, hall]
    rfl

end Cursor

/-- The tokens of a source are its lexemes, in order, and one end token. -/
theorem scans_of_tokenize {source file : String} {tokens : List Token}
    (heq : tokenize source file = .ok tokens) :
    ∃ lexemes, Scans source.toList lexemes [] ∧ Token.Enclose tokens lexemes :=
  Cursor.scans_of_all heq

/-- Every text that can be scanned to its end can be tokenized. -/
theorem tokenize_of_scans {source : String} {lexemes : List Lexeme}
    (hscans : Scans source.toList lexemes []) (file : String) :
    ∃ tokens, tokenize source file = .ok tokens ∧ Token.Enclose tokens lexemes :=
  Cursor.all_of_scans hscans (Position.start file)

end ClassLang
