import ClassLang.Proofs.WrittenScalars

/-!
# Entries that are written and read

Every written entry is read in three steps: the key, the colon and the value.  The
first key opens the mapping, and the other ones start at the same column, so nothing
but the end of the text closes it.
-/

namespace ClassLang.Yaml

/-! ## Keys -/

/-- A key that is written as it is. -/
structure IsKey (key : String) : Prop where
  ne_empty : key ≠ ""
  short : key.length ≤ keyLimit
  letters : key.toList.all Char.isAlpha = true

theorem IsKey.exists_letter {key : String} (hkey : IsKey key) :
    ∃ c rest, key.toList = c :: rest ∧ c.isAlpha = true := by
  obtain ⟨c, rest, hchars⟩ : ∃ c rest, key.toList = c :: rest :=
    List.exists_cons_of_ne_nil (by simpa using hkey.ne_empty)
  have hletter := List.all_eq_true.mp hkey.letters c (hchars ▸ List.mem_cons_self)
  exact ⟨c, rest, hchars, hletter⟩

/-- Letters are neither spacing nor marks. -/
theorem of_isAlpha {c : Char} (hletter : c.isAlpha = true) :
    isSpacing c = false ∧ isIndicator c = false ∧
      c ∉ ['-', '?', ':', '#', '%', '.'] := by
  have hother : ∀ marks : List Char, marks.all (fun d => !d.isAlpha) = true → c ∉ marks := by
    intro marks hmarks hmem
    simpa [hletter] using List.all_eq_true.mp hmarks c hmem
  refine ⟨?_, ?_, hother _ (by decide)⟩
  · have hspacing := hother [' ', '\t', '\n', '\r', '\u0085', '\u2028', '\u2029'] (by decide)
    simp only [List.mem_cons, List.not_mem_nil, or_false, not_or] at hspacing
    simp [isSpacing, isBlank, isLineBreak, hspacing]
  · rw [isIndicator, List.contains_eq_mem, decide_eq_false_iff_not]
    exact hother _ (by decide)

/-! ## Entries -/

/-- Nothing comes next, or the key of an entry. -/
def StartsEntry (text : List Char) : Prop :=
  ∀ c ∈ text.head?, c.isAlpha = true

/-- An entry starts with a letter at the edge, so the text before it ends there. -/
theorem StartsEntry.startsLine {text : List Char} (hafter : StartsEntry text) : StartsLine text :=
  fun c hc => (of_isAlpha (hafter c hc)).1

/-- An entry is a key, a colon, a space and a scalar on a line of its own. -/
theorem toList_writeEntry {key text : String} (hline : IsOneLine text) :
    (writeEntry key text).toList =
      key.toList ++ ':' :: ' ' :: (writeScalar (key.length + 2) text ++ ['\n']) := by
  have hstyle : (styleOf text == .literal) = false :=
    beq_eq_false_iff_ne.mpr (styleOf_ne_literal hline)
  simp [writeEntry, hstyle]

/-- Entries of one line each, one after another. -/
def entriesText (entries : List (String × String)) : List Char :=
  entries.flatMap fun entry => (writeEntry entry.1 entry.2).toList

/-- Entries that are written on lines of their own. -/
def AreLines (entries : List (String × String)) : Prop :=
  ∀ entry ∈ entries, IsKey entry.1 ∧ IsOneLine entry.2

/-- After any entries stands another entry or the end. -/
theorem startsEntry_entriesText {entries : List (String × String)} (hentries : AreLines entries) :
    StartsEntry (entriesText entries) := by
  cases entries with
  | nil =>
    rintro _ ⟨⟩
  | cons entry entries =>
    obtain ⟨hkey, htext⟩ := hentries entry List.mem_cons_self
    obtain ⟨c, others, hchars, hletter⟩ := hkey.exists_letter
    rw [entriesText, List.flatMap_cons, toList_writeEntry htext, hchars]
    rintro _ ⟨⟩
    exact hletter

/-- An entry has three characters besides its key and its value.  So there is fuel for
every token. -/
theorem length_entriesText {entries : List (String × String)} (hentries : AreLines entries) :
    3 * entries.length ≤ (entriesText entries).length := by
  induction entries with
  | nil => exact Nat.le_refl _
  | cons entry entries ih =>
    obtain ⟨⟨-, htext⟩, hothers⟩ := List.forall_mem_cons.mp hentries
    have hrest := ih hothers
    rw [entriesText] at hrest ⊢
    rw [List.flatMap_cons, toList_writeEntry htext]
    simp only [List.length_append, List.length_cons, List.length_nil]
    omega

/-! ## Characters -/

theorem isDirect_of_isAlpha {c : Char} (hletter : c.isAlpha = true) : isDirect c = true := by
  have hcode : c.toNat = c.val.toNat := rfl
  change (decide (c.val ≥ 'A'.val ∧ c.val ≤ 'Z'.val) ||
    (decide (c.val ≥ 'a'.val) && decide (c.val ≤ 'z'.val))) = true at hletter
  simp only [isDirect, Bool.or_eq_true, Bool.and_eq_true, decide_eq_true_eq, ge_iff_le,
    UInt32.le_iff_toNat_le] at hletter ⊢
  grind

/-- Entries are made of ordinary characters, whatever the texts in them. -/
theorem isOrdinary_entriesText {entries : List (String × String)} (hentries : AreLines entries) :
    Source.isOrdinary (entriesText entries) = true := by
  induction entries with
  | nil => rfl
  | cons entry entries ih =>
    obtain ⟨⟨hkey, htext⟩, hothers⟩ := List.forall_mem_cons.mp hentries
    have hletters : Source.isOrdinary entry.1.toList = true := by
      rw [Source.isOrdinary, List.all_eq_true]
      intro c hmem
      have hletter := isOrdinary_of_isDirect (isDirect_of_isAlpha
        (List.all_eq_true.mp hkey.letters c hmem))
      simpa [Source.isOrdinary] using hletter
    have hentry : Source.isOrdinary (writeEntry entry.1 entry.2).toList = true := by
      rw [toList_writeEntry htext, isOrdinary_append, hletters, isOrdinary_cons ':',
        isOrdinary_cons ' ', isOrdinary_append, isOrdinary_writeScalar htext]
      decide
    rw [entriesText, List.flatMap_cons, isOrdinary_append, hentry]
    exact ih hothers

/-- No ordinary text starts with an order mark. -/
theorem Source.withoutOrderMark_of_isOrdinary {text : List Char} (htext : isOrdinary text = true) :
    withoutOrderMark text = text := by
  unfold withoutOrderMark
  split
  · next rest =>
    rw [isOrdinary_cons] at htext
    exact absurd (Bool.and_eq_true_iff.mp htext).1 (by decide)
  · rfl

/-- The bytes of written entries are all in view from the start. -/
theorem Source.ofBytes_entriesText {text : String} {entries : List (String × String)}
    (hentries : AreLines entries) (htext : text.toList = entriesText entries) :
    Source.ofBytes text.toUTF8 = ⟨entriesText entries, .whole⟩ := by
  have hordinary := isOrdinary_entriesText hentries
  simp only [ofBytes, Text.fromUTF8?_toUTF8, Option.map_some, htext,
    withoutOrderMark_of_isOrdinary hordinary, Option.filter_some, hordinary, if_true]

/-! ## Reading a key -/

theorem Place.advance_next (place : Place) (count : Nat) :
    place.next.advance count = place.advance (count + 1) := by
  simp only [next, advance, Nat.add_assoc, Nat.add_comm 1]

/-- A word of letters ends at the colon after it. -/
theorem readPlain_key {word rest : List Char} {indent : Nat} {place : Place}
    (hwhole : place.view = .whole) (hletters : ∀ c ∈ word, c.isAlpha = true) :
    readPlain false indent .none place (word ++ ':' :: ' ' :: rest) =
      .ok ⟨word, false, ⟨':' :: ' ' :: rest, place.advance word.length⟩⟩ := by
  induction word generalizing place with
  | nil => exact readPlain_colon hwhole
  | cons c word ih =>
    rw [List.forall_mem_cons] at hletters
    obtain ⟨hspacing, -, hmark⟩ := of_isAlpha hletters.1
    have hcolon : c ≠ ':' := by
      rintro rfl
      exact hmark (by decide)
    have hword : closesWord false c (word ++ ':' :: ' ' :: rest) = false := by
      simp [closesWord, hcolon]
    have hnext : place.next.view = .whole := hwhole
    rw [List.cons_append, readPlain_word hwhole hspacing (.inl rfl) hword (.inl rfl),
      ih hnext hletters.2, Place.advance_next]
    rfl

namespace Tokenizer

/-! ## Going to the next token -/

section Skip

variable {inFlow allowed : Bool} {place : Place} {c : Char} {rest : List Char}

theorem cutsHere_whole (hwhole : place.view = .whole) : cutsHere place = false := by
  simp [cutsHere, hwhole, View.startsWithMark]

theorem skip_nil (hwhole : place.view = .whole) :
    skip inFlow allowed false place [] = .ok (allowed, ⟨[], place⟩) := by
  rw [skip]
  simp only [Place.look_whole hwhole, cutsHere_whole hwhole, ok_bind]
  rfl

theorem skip_space (hwhole : place.view = .whole) :
    skip inFlow allowed false place (' ' :: rest) = skip inFlow allowed false place.next rest := by
  rw [skip]
  simp only [Place.look_whole hwhole, cutsHere_whole hwhole, ok_bind]
  rfl

theorem skip_newline (hwhole : place.view = .whole) :
    skip false allowed false place ('\n' :: rest) =
      skip false true false (place.nextLine 1) rest := by
  rw [skip]
  simp only [Place.look_whole hwhole, cutsHere_whole hwhole, ok_bind]
  rw [if_neg Bool.false_ne_true, if_pos (by decide), Bool.not_false, Bool.or_true]
  rfl

/-- Nothing is skipped in front of a word. -/
theorem skip_word (hwhole : place.view = .whole) (hspacing : isSpacing c = false) (hc : c ≠ '#') :
    skip inFlow allowed false place (c :: rest) = .ok (allowed, ⟨c :: rest, place⟩) := by
  obtain ⟨hblank, hbreak⟩ := isSpacing_eq_false_iff.mp hspacing
  have hblanks : c ≠ ' ' ∧ c ≠ '\t' := by simpa [isBlank] using hblank
  rw [skip]
  simp only [Place.look_whole hwhole, cutsHere_whole hwhole, ok_bind]
  simp only [hbreak, hc, hblanks, Bool.false_eq_true, if_false, Bool.false_or, beq_iff_eq,
    Bool.or_eq_true, Bool.and_eq_true, false_and, or_self]
  rfl

end Skip

section Steps

variable {cursor : Cursor} {tokens : Array Token} {indents : List Nat} {allowed : Bool}
  {key : Option PendingKey} {place : Place} {text rest : List Char} {c : Char}

/-- A pending key is on the line of a place and not too long there. -/
def KeyLasts (key : Option PendingKey) (place : Place) : Prop :=
  ∀ pending ∈ key, pending.place.line = place.line ∧
    place.index ≤ pending.place.index + keyLimit

theorem keyLasts_none : KeyLasts none place := by
  rintro _ ⟨⟩

/-- A key is on one line, and the keys of a manifest are short enough. -/
theorem keyLasts_word {start : Place} {number : Nat} {required : Bool} {word : String}
    (hword : IsKey word) :
    KeyLasts (some ⟨start, number, required⟩) (start.advance word.length) := by
  rintro pending ⟨⟩
  exact ⟨rfl, Nat.add_le_add_left hword.short _⟩

/-- A key that lasts is not dropped. -/
theorem dropOldKeys_eq (hkey : KeyLasts key cursor.place) :
    dropOldKeys ⟨cursor, tokens, indents, allowed, key, []⟩ =
      .ok ⟨cursor, tokens, indents, allowed, key, []⟩ := by
  cases key with
  | none => rfl
  | some pending =>
    obtain ⟨hline, hindex⟩ := hkey pending rfl
    have hover : isOver ⟨cursor, tokens, indents, allowed, some pending, []⟩ pending = false := by
      simp only [isOver, Tokenizer.place, hline, Nat.lt_irrefl, Nat.not_lt_of_le hindex,
        decide_false, Bool.or_self]
    simp [dropOldKeys, hover]

/-- Nothing ends before a token that is indented as far as what is open. -/
theorem approach_eq {later : Bool}
    (hskip : skip false allowed false cursor.place cursor.rest = .ok (later, ⟨text, place⟩))
    (hwhole : place.view = .whole) (hkey : KeyLasts key place)
    (hindents : ∀ column ∈ indents, column ≤ place.column) :
    approach ⟨cursor, tokens, indents, allowed, key, []⟩ =
      .ok ⟨⟨text, place⟩, tokens, indents, later, key, []⟩ := by
  have hclosed : indents.takeWhile (fun column => decide (place.column < column)) = [] := by
    cases indents with
    | nil => rfl
    | cons column others => simp [Nat.not_lt_of_le (hindents column List.mem_cons_self)]
  have hdedent : dedent ⟨⟨text, place⟩, tokens, indents, later, key, []⟩
      (fun column => decide (place.column < column)) =
      ⟨⟨text, place⟩, tokens, indents, later, key, []⟩ := by
    simp [dedent, inFlow, hclosed]
  have hold : dropOldKeys ⟨⟨text, place⟩, tokens, indents, later, key, []⟩ =
      .ok ⟨⟨text, place⟩, tokens, indents, later, key, []⟩ := dropOldKeys_eq hkey
  have hflow : inFlow ⟨cursor, tokens, indents, allowed, key, []⟩ = false := rfl
  rw [approach, hflow]
  change (skip false allowed false cursor.place cursor.rest >>= _) = _
  rw [hskip, ok_bind]
  dsimp only
  rw [hold, ok_bind]
  change (dedent _ (fun column => decide (place.column < column))).lookAhead = _
  rw [hdedent]
  simp only [lookAhead, Cursor.look, Place.look_whole hwhole, ok_bind]
  rfl

/-- One token: the cursor approaches it, its first characters say what it is, and its
lexeme is read. -/
theorem step_eq {state ready : Tokenizer} {start : Start} {kind : TokenKind} {after : Cursor}
    {endsLine : Bool} (happroach : state.approach = .ok ready) (hstart : ready.start? = some start)
    (haccept : ready.accept start = .ok ⟨cursor, tokens, indents, allowed, key, []⟩)
    (hlexeme : lexeme ⟨cursor, tokens, indents, allowed, key, []⟩ start =
      .ok ⟨kind, after, endsLine⟩)
    (hkey : KeyLasts key after.place) :
    state.step = .ok ⟨after, tokens.push ⟨kind, cursor.place.line⟩, indents, allowed || endsLine,
      key, []⟩ := by
  simp only [step, happroach, hstart, haccept, hlexeme, ok_bind]
  exact dropOldKeys_eq hkey

/-- What opens a plain scalar starts one, away from the edge or with a letter. -/
theorem start?_plain (hopens : opensPlain false (c :: rest) = true)
    (hedge : place.column ≠ 0 ∨ c.isAlpha = true) :
    start? ⟨⟨c :: rest, place⟩, tokens, indents, allowed, key, []⟩ = some .plain := by
  have hmark : (place.column == 0 && c == '%') = false ∧
      (place.column == 0 && isMark '-' (c :: rest)) = false ∧
      (place.column == 0 && isMark '.' (c :: rest)) = false := by
    rcases hedge with hedge | hletter
    · simp [hedge]
    · have hmarks := (of_isAlpha hletter).2.2
      simp only [List.mem_cons, List.not_mem_nil, or_false, not_or] at hmarks
      simp [isMark, hmarks]
  simp [start?, Tokenizer.place, inFlow, hmark, hopens]

theorem opensPlain_of_isAlpha (hletter : c.isAlpha = true) :
    opensPlain false (c :: rest) = true := by
  obtain ⟨hspacing, hindicator, hmarks⟩ := of_isAlpha hletter
  simp only [List.mem_cons, List.not_mem_nil, or_false, not_or] at hmarks
  simp [opensPlain, hmarks, hspacing, hindicator]

/-- Where no key can start, a scalar is only read. -/
theorem accept_scalar {start : Start} (hstart : start ∈ [.plain, .singleQuote, .doubleQuote]) :
    accept ⟨cursor, tokens, indents, false, key, []⟩ start =
      .ok ⟨cursor, tokens, indents, false, key, []⟩ := by
  simp only [List.mem_cons, List.not_mem_nil, or_false] at hstart
  rcases hstart with rfl | rfl | rfl <;> rfl

/-- A plain scalar inside a block is indented more than the block. -/
theorem lexeme_plain (hwhole : place.view = .whole) :
    lexeme ⟨⟨text, place⟩, tokens, indents, allowed, key, []⟩ .plain =
      (readPlain false (indents.head?.elim 0 (· + 1)) .none place text).map fun scalar =>
        ⟨.scalar ⟨String.ofList scalar.text, true⟩, scalar.cursor, scalar.endsLine⟩ := by
  simp only [lexeme, Cursor.look, Place.look_whole hwhole, ok_bind]
  rfl

/-- The next token is the first of a line, and no key is pending. -/
def AtLine (state : Tokenizer) (tokens : Array Token) (indents : List Nat) (start : Place)
    (rest : List Char) : Prop :=
  ∃ cursor allowed, state = ⟨cursor, tokens, indents, allowed, none, []⟩ ∧
    skip false allowed false cursor.place cursor.rest = .ok (true, ⟨rest, start⟩) ∧
    start.view = .whole ∧ start.column = 0

/-- A word at the start of a line is read as a scalar, and it may turn out to be a key. -/
theorem step_key {state : Tokenizer} {start : Place} {word : String}
    (hline : state.AtLine tokens indents start (word.toList ++ ':' :: ' ' :: rest))
    (hindents : ∀ column ∈ indents, column = 0) (hword : IsKey word) :
    state.step = .ok ⟨⟨':' :: ' ' :: rest, start.advance word.length⟩,
      tokens.push ⟨.scalar ⟨word, true⟩, start.line⟩, indents, false,
      some ⟨start, tokens.size, indents.head? == some start.column⟩, []⟩ := by
  obtain ⟨cursor, allowed, rfl, hskip, hwhole, hcolumn⟩ := hline
  obtain ⟨c, others, hchars, hletter⟩ := hword.exists_letter
  have happroach : approach ⟨cursor, tokens, indents, allowed, none, []⟩ =
      .ok ⟨⟨word.toList ++ ':' :: ' ' :: rest, start⟩, tokens, indents, true, none, []⟩ :=
    approach_eq hskip hwhole keyLasts_none fun column hmem => hindents column hmem ▸ Nat.zero_le _
  have hstart : start? ⟨⟨word.toList ++ ':' :: ' ' :: rest, start⟩, tokens, indents, true, none,
      []⟩ = some .plain := by
    rw [hchars]
    exact start?_plain (opensPlain_of_isAlpha hletter) (.inr hletter)
  have hlexeme : lexeme ⟨⟨word.toList ++ ':' :: ' ' :: rest, start⟩, tokens, indents, false,
      some ⟨start, tokens.size, indents.head? == some start.column⟩, []⟩ .plain =
      .ok ⟨.scalar ⟨word, true⟩, ⟨':' :: ' ' :: rest, start.advance word.length⟩, false⟩ := by
    rw [lexeme_plain hwhole, readPlain_key hwhole (List.all_eq_true.mp hword.letters)]
    simp [Except.map, String.length_toList]
  rw [step_eq happroach hstart rfl hlexeme (keyLasts_word hword)]
  rfl

/-- At the first key the mapping opens. -/
def openingKinds (indents : List Nat) : List TokenKind :=
  if indents = [] then [.mappingStart] else []

/-- A token that is put in later stands where the key began. -/
theorem toList_insertIdxIfInBounds {front back : List Token}
    (htokens : tokens.toList = front ++ back) (token : Token) :
    (tokens.insertIdxIfInBounds front.length token).toList = front ++ token :: back := by
  have hsize : front.length ≤ tokens.size := by
    rw [← Array.length_toList, htokens, List.length_append]
    exact Nat.le_add_right _ _
  have hinsert : (front ++ back).insertIdx front.length token = front ++ token :: back := by
    clear htokens hsize
    induction front with
    | nil => rfl
    | cons first front ih => exact congrArg (first :: ·) ih
  rw [Array.insertIdxIfInBounds, dif_pos hsize, Array.toList_insertIdx, htokens, hinsert]

theorem start?_colon (hcolumn : 0 < place.column) :
    start? ⟨⟨':' :: ' ' :: rest, place⟩, tokens, indents, allowed, key, []⟩ = some .value := by
  have hedge : (place.column == 0) = false := beq_eq_false_iff_ne.mpr (Nat.ne_of_gt hcolumn)
  simp [start?, Tokenizer.place, hedge, opensPlain, startsSpacing, isSpacing, isBlank]

/-- The colon puts the tokens of a key in front of the pending one. -/
theorem openValue_key {start : Place} {word : Token} {required : Bool} (hstart : start.column = 0)
    (hindents : indents = [] ∨ indents = [0]) :
    ∃ after, openValue ⟨cursor, tokens.push word, indents, allowed,
        some ⟨start, tokens.size, required⟩, []⟩ = .ok ⟨cursor, after, [0], false, none, []⟩ ∧
      after.toList.map Token.kind = tokens.toList.map Token.kind ++ openingKinds indents ++
        [.key, word.kind] := by
  have hpush : (tokens.push word).toList = tokens.toList ++ [word] := Array.toList_push
  have hkey := toList_insertIdxIfInBounds hpush ⟨.key, start.line⟩
  have hmapping := toList_insertIdxIfInBounds hkey ⟨.mappingStart, start.line⟩
  rw [Array.length_toList] at hkey hmapping
  rcases hindents with rfl | rfl
  · refine ⟨((tokens.push word).insertIdxIfInBounds tokens.size ⟨.key, start.line⟩)
      |>.insertIdxIfInBounds tokens.size ⟨.mappingStart, start.line⟩, ?_, ?_⟩
    · simp [openValue, indent, inFlow, hstart]
    · simp [hmapping, openingKinds]
  · refine ⟨(tokens.push word).insertIdxIfInBounds tokens.size ⟨.key, start.line⟩, ?_, ?_⟩
    · simp [openValue, indent, inFlow, hstart]
    · simp [hkey, openingKinds]

/-- The colon shows that it is a key. -/
theorem step_colon (tokens : Array Token) (rest : List Char) (required : Bool) {start : Place}
    {word : String} (hwhole : start.view = .whole) (hcolumn : start.column = 0)
    (hword : IsKey word) (hindents : indents = [] ∨ indents = [0]) :
    ∃ after, step ⟨⟨':' :: ' ' :: rest, start.advance word.length⟩,
        tokens.push ⟨.scalar ⟨word, true⟩, start.line⟩, indents, false,
        some ⟨start, tokens.size, required⟩, []⟩ =
      .ok ⟨⟨' ' :: rest, start.advance (word.length + 1)⟩, after, [0], false, none, []⟩ ∧
      after.toList.map Token.kind = tokens.toList.map Token.kind ++ openingKinds indents ++
        [.key, .scalar ⟨word, true⟩, .value] := by
  have hlength : 0 < word.length := Nat.pos_of_ne_zero (by simpa using hword.ne_empty)
  have hedge : 0 < (start.advance word.length).column :=
    Nat.lt_of_lt_of_le hlength (Nat.le_add_left _ _)
  have hle : ∀ column ∈ indents, column ≤ (start.advance word.length).column := by
    rcases hindents with rfl | rfl <;> simp
  have happroach : approach ⟨⟨':' :: ' ' :: rest, start.advance word.length⟩,
      tokens.push ⟨.scalar ⟨word, true⟩, start.line⟩, indents, false,
      some ⟨start, tokens.size, required⟩, []⟩ =
      .ok ⟨⟨':' :: ' ' :: rest, start.advance word.length⟩,
        tokens.push ⟨.scalar ⟨word, true⟩, start.line⟩, indents, false,
        some ⟨start, tokens.size, required⟩, []⟩ := by
    have hplace : (start.advance word.length).view = .whole := hwhole
    exact approach_eq (skip_word hplace rfl (by decide)) hplace (keyLasts_word hword) hle
  obtain ⟨settled, haccept, hkinds⟩ := openValue_key hcolumn hindents
  refine ⟨_, step_eq happroach (start?_colon hedge) haccept rfl keyLasts_none, ?_⟩
  simp [hkinds]

/-- Nothing is skipped in front of an entry. -/
theorem skip_entry (hwhole : place.view = .whole) (hafter : StartsEntry text) :
    skip false allowed false place text = .ok (allowed, ⟨text, place⟩) := by
  cases text with
  | nil => exact skip_nil hwhole
  | cons c rest =>
    obtain ⟨hspacing, -, hmark⟩ := of_isAlpha (hafter c rfl)
    apply skip_word hwhole hspacing
    rintro rfl
    exact hmark (by decide)

/-- A scalar starts here, and it is the last token of its line. -/
def EndsLine (state : Tokenizer) (scalar : Scalar) (after : List Char) : Prop :=
  (∀ c ∈ state.cursor.rest.head?, isSpacing c = false ∧ c ≠ '#') ∧
    ∃ start ∈ [Start.plain, .singleQuote, .doubleQuote], state.start? = some start ∧
    ∃ cursor endsLine next, state.lexeme start = .ok ⟨.scalar scalar, cursor, endsLine⟩ ∧
      skip false endsLine false cursor.place cursor.rest = .ok (true, ⟨after, next⟩) ∧
      next.view = .whole ∧ next.column = 0

section Values

variable {after : List Char} {column : Nat}

/-- A plain value fills the rest of its line. -/
theorem endsLine_plain (hwhole : place.view = .whole) (hcolumn : 0 < place.column)
    (hafter : StartsEntry after) (hplain : canBePlain text = true) :
    EndsLine ⟨⟨writePlain column false text ++ '\n' :: after, place⟩, tokens, [0], false, none, []⟩
      ⟨String.ofList text, true⟩ after := by
  have hopens : opensPlain false text = true := by
    simp only [canBePlain, Bool.and_eq_true] at hplain
    exact hplain.1.1.1.1
  obtain ⟨stop, hread, hstop, hedge⟩ := readsPlain_write hafter.startsLine Nat.one_pos (by decide)
    (staysPlain_of_canBePlain hplain) .none (fun _ => rfl) hwhole hcolumn
  obtain ⟨c, rest, hwritten, hopens⟩ := opensPlain_write hopens
  refine ⟨?_, .plain, by decide, ?_, ⟨after, stop⟩, true, stop, ?_, skip_entry hstop hafter, hstop,
    hedge⟩
  · rw [hwritten]
    rintro _ ⟨⟩
    exact of_opensPlain hopens
  · rw [hwritten]
    exact start?_plain hopens (.inl (Nat.ne_of_gt hcolumn))
  · rw [lexeme_plain hwhole]
    change (readPlain false 1 _ _ _).map _ = _
    rw [hread]
    rfl

theorem start?_quote (hcolumn : 0 < place.column) :
    start? ⟨⟨'\'' :: rest, place⟩, tokens, indents, allowed, key, []⟩ = some .singleQuote ∧
      start? ⟨⟨'"' :: rest, place⟩, tokens, indents, allowed, key, []⟩ = some .doubleQuote := by
  have hedge : (place.column == 0) = false := beq_eq_false_iff_ne.mpr (Nat.ne_of_gt hcolumn)
  constructor <;> simp [start?, Tokenizer.place, hedge, opensPlain, isIndicator]

theorem lexeme_quote (hwhole : place.view = .whole) :
    lexeme ⟨⟨'\'' :: rest, place⟩, tokens, indents, allowed, key, []⟩ .singleQuote =
        (readSingleQuoted .none place.next rest).map (fun scalar =>
          markedScalar scalar.text scalar.cursor) ∧
      lexeme ⟨⟨'"' :: rest, place⟩, tokens, indents, allowed, key, []⟩ .doubleQuote =
        (readDoubleQuoted .none place.next rest).map (fun scalar =>
          markedScalar scalar.text scalar.cursor) := by
  have hnext : (place.advance 1).view = .whole := hwhole
  constructor
  · simp only [lexeme, Cursor.look, Cursor.drop, Place.look_whole hnext, ok_bind]
    rfl
  · simp only [lexeme, Cursor.look, Cursor.drop, Place.look_whole hnext, ok_bind]
    rfl

/-- A value in quotes fills the rest of its line, whatever the quotes are. -/
theorem endsLine_quoted {read : Gap → Place → List Char → Except Fault QuotedScalar}
    {start : Start} (hc : isSpacing c = false ∧ c ≠ '#')
    (hmem : start ∈ [Start.plain, .singleQuote, .doubleQuote])
    (hstart : start? ⟨⟨c :: rest, place⟩, tokens, indents, allowed, key, []⟩ = some start)
    (hlexeme : lexeme ⟨⟨c :: rest, place⟩, tokens, indents, allowed, key, []⟩ start =
      (read .none place.next rest).map fun scalar => markedScalar scalar.text scalar.cursor)
    (hread : ReadsQuoted read .none place.next rest text ('\n' :: after))
    (hafter : StartsEntry after) :
    EndsLine ⟨⟨c :: rest, place⟩, tokens, indents, allowed, key, []⟩ ⟨String.ofList text, false⟩
      after := by
  obtain ⟨stop, hread, hstop⟩ := hread
  have hskip : skip false false false stop ('\n' :: after) = .ok (true, ⟨after, stop.nextLine 1⟩) :=
    (skip_newline hstop).trans (skip_entry hstop hafter)
  refine ⟨?_, start, hmem, hstart, ⟨'\n' :: after, stop⟩, false, stop.nextLine 1, ?_, hskip, hstop,
    rfl⟩
  · rintro _ ⟨⟩
    exact hc
  · rw [hlexeme, hread]
    rfl

/-- A value fills the rest of its line, whatever its style. -/
theorem endsLine_writeScalar {text : String} (hwhole : place.view = .whole)
    (hcolumn : 0 < place.column) (hafter : StartsEntry after) (hline : IsOneLine text) :
    EndsLine ⟨⟨writeScalar column text ++ '\n' :: after, place⟩, tokens, [0], false, none, []⟩
      (writtenScalar text) after := by
  have hnext : place.next.view = .whole := hwhole
  have hscalar : ∀ style, styleOf text = style →
      writtenScalar text = ⟨String.ofList text.toList, style == .plain⟩ := by
    rintro style rfl
    rw [writtenScalar, String.ofList_toList]
  unfold writeScalar
  dsimp only
  split
  · next hstyle =>
    rw [hscalar _ hstyle]
    exact endsLine_plain hwhole hcolumn hafter ((of_styleOf text).1 hstyle).2
  · next hstyle =>
    have hsingle := (of_styleOf text).2.1 hstyle
    simp only [canBeSingleQuoted, Bool.and_eq_true, List.all_eq_true] at hsingle
    have hspacing : ∀ c ∈ text.toList, isSpacing c = true → c = ' ' :=
      fun c hc => eq_space_of_isDirect (hsingle.1.1 c hc) (hline.isLineBreak_eq_false hc)
    rw [hscalar _ hstyle, singleQuoted, List.cons_append, List.cons_append, List.append_assoc]
    exact endsLine_quoted (by decide) (by decide) (start?_quote hcolumn).1 (lexeme_quote hwhole).1
      (readsSingleQuoted_write hspacing .none (fun _ => rfl) hnext (Nat.succ_pos _)) hafter
  · next hstyle =>
    rw [hscalar _ hstyle, doubleQuoted, List.cons_append, List.cons_append, List.append_assoc]
    apply endsLine_quoted (by decide) (by decide) (start?_quote hcolumn).2 (lexeme_quote hwhole).2 _
      hafter
    split
    · exact readsDoubleQuoted_escaped hnext
    · exact readsDoubleQuoted_write _ _ .none (fun _ => rfl) hnext (Nat.succ_pos _)
  · next hstyle => exact absurd hstyle (styleOf_ne_literal hline)

/-- The value after a colon is one token, and the next line is reached with it. -/
theorem EndsLine.step {scalar : Scalar} (hwhole : place.view = .whole)
    (hends : EndsLine ⟨⟨text, place.next⟩, tokens, [0], false, none, []⟩ scalar after) :
    ∃ state start,
      step ⟨⟨' ' :: text, place⟩, tokens, [0], false, none, []⟩ = .ok state ∧
      state.AtLine (tokens.push ⟨.scalar scalar, place.line⟩) [0] start after := by
  obtain ⟨hword, start, hmem, hstart, cursor, endsLine, next, hlexeme, hskip, hstop, hedge⟩ := hends
  have hnext : place.next.view = .whole := hwhole
  have hspace : skip false false false place (' ' :: text) = .ok (false, ⟨text, place.next⟩) := by
    rw [skip_space hwhole]
    cases text with
    | nil => exact skip_nil hnext
    | cons c rest => exact skip_word hnext (hword c rfl).1 (hword c rfl).2
  have happroach : approach ⟨⟨' ' :: text, place⟩, tokens, [0], false, none, []⟩ =
      .ok ⟨⟨text, place.next⟩, tokens, [0], false, none, []⟩ :=
    approach_eq hspace hnext keyLasts_none (by simp)
  have hstep := step_eq happroach hstart (accept_scalar hmem) hlexeme keyLasts_none
  exact ⟨_, next, hstep, cursor, endsLine, rfl, hskip, hstop, hedge⟩

end Values

/-! ## Runs -/

/-- A step that does not end the text costs one unit of fuel. -/
theorem run_succ {state next : Tokenizer} (hstep : state.step = .ok next)
    (hlast : (next.tokens.toList.map Token.kind).getLast? ≠ some .textEnd) (fuel : Nat) :
    run (fuel + 1) state = run fuel next := by
  have hdone : next.isDone = false := by
    rw [isDone, ← Array.getLast?_toList]
    rw [List.getLast?_map] at hlast
    cases hback : next.tokens.toList.getLast? with
    | none => rfl
    | some token => simpa [hback] using hlast
  simp only [run, hstep, hdone]
  rfl

/-- The tokens of an entry. -/
def entryKinds (entry : String × String) : List TokenKind :=
  [.key, .scalar ⟨entry.1, true⟩, .value, .scalar (writtenScalar entry.2)]

theorem AtLine.tokens_eq {state : Tokenizer} {start : Place}
    (hline : state.AtLine tokens indents start text) : state.tokens = tokens := by
  obtain ⟨cursor, allowed, rfl, -⟩ := hline
  rfl

/-- An entry is read in three steps. -/
theorem run_entry {state : Tokenizer} {start : Place} {entry : String × String}
    {after : List Char}
    (hline : state.AtLine tokens indents start ((writeEntry entry.1 entry.2).toList ++ after))
    (hindents : indents = [] ∨ indents = [0]) (hkey : IsKey entry.1) (htext : IsOneLine entry.2)
    (hafter : StartsEntry after) :
    ∃ next later start, next.AtLine later [0] start after ∧
      later.toList.map Token.kind = tokens.toList.map Token.kind ++ openingKinds indents ++
        entryKinds entry ∧
      ∀ fuel, run (fuel + 3) state = run fuel next := by
  obtain ⟨word, text⟩ := entry
  have hwritten : (writeEntry word text).toList ++ after =
      word.toList ++ ':' :: ' ' :: (writeScalar (word.length + 2) text ++ '\n' :: after) := by
    simp [toList_writeEntry htext]
  rw [hwritten] at hline
  have hzero : ∀ column ∈ indents, column = 0 := by
    rcases hindents with rfl | rfl <;> simp
  have hword := step_key hline hzero hkey
  obtain ⟨-, -, -, -, hwhole, hcolumn⟩ := hline
  -- after the colon the mapping is open, whether it was before or not
  obtain ⟨settled, hcolon, hsettled⟩ := step_colon tokens
    (writeScalar (word.length + 2) text ++ '\n' :: after) (indents.head? == some start.column)
    hwhole hcolumn hkey hindents
  have hends : EndsLine ⟨⟨writeScalar (word.length + 2) text ++ '\n' :: after,
      (start.advance (word.length + 1)).next⟩, settled, [0], false, none, []⟩
      (writtenScalar text) after :=
    endsLine_writeScalar hwhole (Nat.succ_pos _) hafter htext
  have hplace : (start.advance (word.length + 1)).view = .whole := hwhole
  obtain ⟨next, later, hvalue, hnext⟩ := hends.step hplace
  refine ⟨next, _, later, hnext, by simp [hsettled, entryKinds], ?_⟩
  intro fuel
  rw [run_succ hword (by simp), run_succ hcolon (by simp [hsettled]),
    run_succ hvalue (by rw [hnext.tokens_eq]; simp)]

/-- At the end of the text the mapping is closed. -/
theorem run_end {state : Tokenizer} {start : Place} (hline : state.AtLine tokens [0] start [])
    (fuel : Nat) :
    (run (fuel + 1) state).tokens.map Token.kind =
      tokens.toList.map Token.kind ++ [.blockEnd, .textEnd] := by
  obtain ⟨cursor, allowed, rfl, hskip, hwhole, hcolumn⟩ := hline
  have happroach : approach ⟨cursor, tokens, [0], allowed, none, []⟩ =
      .ok ⟨⟨[], start⟩, tokens, [0], true, none, []⟩ :=
    approach_eq hskip hwhole keyLasts_none (by simp)
  have haccept : accept ⟨⟨[], start⟩, tokens, [0], true, none, []⟩ .textEnd =
      .ok ⟨⟨[], start⟩, tokens.push ⟨.blockEnd, start.line⟩, [], false, none, []⟩ := by
    have hclosed : dedent ⟨⟨[], start⟩, tokens, [0], true, none, []⟩ (fun _ => true) =
        ⟨⟨[], start⟩, tokens.push ⟨.blockEnd, start.line⟩, [], true, none, []⟩ := by
      simp [dedent, inFlow, Tokenizer.place]
    simp only [accept, toLineStart, Tokenizer.place, hcolumn, beq_self_eq_true, if_true, closeAll,
      hclosed]
    rfl
  have hstep := step_eq happroach rfl haccept rfl keyLasts_none
  simp only [run, hstep]
  simp [isDone]

/-- The induction is over the entries, of which only the first opens the mapping. -/
theorem run_entries {state : Tokenizer} {start : Place} {entries : List (String × String)}
    (hline : state.AtLine tokens indents start (entriesText entries))
    (hindents : indents = [] ∧ entries ≠ [] ∨ indents = [0]) (hentries : AreLines entries)
    (fuel : Nat) :
    (run (fuel + 3 * entries.length + 1) state).tokens.map Token.kind =
      tokens.toList.map Token.kind ++ openingKinds indents ++ entries.flatMap entryKinds ++
        [.blockEnd, .textEnd] := by
  induction entries generalizing state tokens indents start with
  | nil =>
    have hopen : indents = [0] := by simpa using hindents
    subst hopen
    rw [run_end hline]
    simp [openingKinds]
  | cons entry entries ih =>
    obtain ⟨⟨hkey, htext⟩, hothers⟩ := List.forall_mem_cons.mp hentries
    obtain ⟨next, later, start, hnext, hkinds, hrun⟩ := run_entry hline (hindents.imp_left And.left)
      hkey htext (startsEntry_entriesText hothers)
    have hfuel : fuel + 3 * (entry :: entries).length + 1 = fuel + 3 * entries.length + 1 + 3 := by
      rw [List.length_cons]
      omega
    rw [hfuel, hrun, ih hnext (.inr rfl) hothers, hkinds]
    simp [openingKinds]

end Steps

end Tokenizer

open Tokenizer

/-- The tokens of written entries. -/
theorem kinds_ofSource {entries : List (String × String)} (hentries : AreLines entries)
    (hne : entries ≠ []) :
    (Tokens.ofSource ⟨entriesText entries, .whole⟩).tokens.map Token.kind =
      .mappingStart :: entries.flatMap entryKinds ++ [.blockEnd, .textEnd] := by
  have hline : AtLine (.ofSource ⟨entriesText entries, .whole⟩) #[] [] ⟨0, 0, 0, .whole⟩
      (entriesText entries) :=
    ⟨_, true, rfl, skip_entry rfl (startsEntry_entriesText hentries), rfl, rfl⟩
  obtain ⟨fuel, hfuel⟩ := Nat.exists_eq_add_of_le' (length_entriesText hentries)
  rw [Tokens.ofSource, hfuel, run_entries hline (.inl ⟨rfl, hne⟩) hentries]
  rfl

end ClassLang.Yaml
