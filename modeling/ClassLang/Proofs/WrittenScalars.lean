import ClassLang.Yaml.Printer
import ClassLang.Yaml.Tokenizer

/-!
# Scalars that are written and read

A text of one line is read back from all three ways to write it: without quotes,
between single quotes and between double quotes.  A written line may be broken at a
space.  Such a line break and the indentation after it are a gap, which stands for
one space, and the writer breaks a line only where that is what it read.
-/

namespace ClassLang.Yaml

theorem ok_bind {ε α β : Type} (value : α) (next : α → Except ε β) :
    (Except.ok value >>= next) = next value := rfl

/-! ## Gaps -/

namespace Gap

/-- A gap of blanks alone. -/
def ofBlanks (blanks : List Char) : Gap := ⟨blanks, [], false, false⟩

/-- A gap with one line break. -/
def folded : Gap := ⟨[], ['\n'], false, false⟩

theorem addBlank_ofBlanks (blanks : List Char) (c : Char) :
    (ofBlanks blanks).addBlank c = ofBlanks (blanks ++ [c]) := rfl

/-- A gap in a written text, and the spaces that it stands for.  A line is not broken
where another space follows. -/
inductive StandsFor (rest : List Char) : Gap → List Char → Prop
  | blanks (count : Nat) : StandsFor rest (ofBlanks (.replicate count ' ')) (.replicate count ' ')
  | folded : rest.head?.any (· != ' ') = true → StandsFor rest folded [' ']

variable {rest spaces : List Char} {gap : Gap}

theorem StandsFor.none : StandsFor rest none [] :=
  .blanks 0

/-- A gap holds exactly the spaces that it stands for. -/
theorem StandsFor.text (hgap : StandsFor rest gap spaces) : gap.text = spaces := by
  cases hgap <;> rfl

theorem StandsFor.eq_none (hgap : StandsFor rest gap []) : gap = Gap.none := by
  generalize hspaces : [] = spaces at hgap
  cases hgap with
  | blanks count => rw [← hspaces]; rfl
  | folded => cases hspaces

/-- A gap is empty exactly if no spaces were read. -/
theorem StandsFor.isNone (hgap : StandsFor rest gap spaces) : gap.isNone = spaces.isEmpty := by
  cases hgap with
  | blanks count => simp [Gap.isNone, ofBlanks, hasBreak]
  | folded => rfl

/-- Before another space there are only blanks. -/
theorem StandsFor.addBlank (hgap : StandsFor (' ' :: rest) gap spaces) :
    StandsFor rest (gap.addBlank ' ') (spaces ++ [' ']) := by
  cases hgap with
  | blanks count =>
    rw [addBlank_ofBlanks, ← List.replicate_succ']
    exact .blanks (count + 1)
  | folded hhead => simp at hhead

/-- Where all of the text is in view, looking at a word brings nothing more into view. -/
theorem lookAtWord_whole {place : Place} (hwhole : place.view = .whole) (gap : Gap)
    (text : List Char) : gap.lookAtWord place text = .ok place := by
  rw [lookAtWord, Place.look_whole hwhole]
  split <;> rfl

end Gap

/-- What separates words is a blank or a line break. -/
theorem isSpacing_eq_false_iff {c : Char} :
    isSpacing c = false ↔ isBlank c = false ∧ isLineBreak c = false := by
  rw [isSpacing, Bool.or_eq_false_iff]

theorem ne_return_of_isLineBreak {c : Char} (hbreak : isLineBreak c = false) : c ≠ '\r' := by
  rintro rfl
  exact absurd hbreak (by decide)

theorem isSpacing_eq_false_of_ne {c : Char} (hspacing : isSpacing c = true → c = ' ')
    (hc : c ≠ ' ') : isSpacing c = false := by
  cases hword : isSpacing c with
  | false => rfl
  | true => exact absurd (hspacing hword) hc

/-! ## Plain scalars -/

section Plain

variable {indent : Nat} {gap : Gap} {place : Place} {c : Char} {rest after text : List Char}

theorem readPlain_newline (hwhole : place.view = .whole) :
    readPlain false indent gap place ('\n' :: rest) =
      readPlain false indent (gap.addBreak '\n') (place.nextLine 1) rest := by
  rw [readPlain]
  simp only [Place.look_whole hwhole, ok_bind]
  rfl

theorem readPlain_space (hwhole : place.view = .whole) :
    readPlain false indent gap place (' ' :: rest) =
      readPlain false indent (gap.addBlank ' ') place.next rest := by
  rw [readPlain]
  simp only [Place.look_whole hwhole, ok_bind]
  rfl

/-- A character that ends neither the word nor the scalar is kept, after the gap before
it. -/
theorem readPlain_word (hwhole : place.view = .whole) (hspacing : isSpacing c = false)
    (hcolumn : gap.isNone = true ∨ indent ≤ place.column)
    (hword : closesWord false c rest = false)
    (hplain : gap.isNone = true ∨ closesPlain place.column (c :: rest) = false) :
    readPlain false indent gap place (c :: rest) =
      (readPlain false indent .none place.next rest).map fun scalar =>
        { scalar with text := gap.text ++ c :: scalar.text } := by
  obtain ⟨hblank, hbreak⟩ := isSpacing_eq_false_iff.mp hspacing
  have hreturn := ne_return_of_isLineBreak hbreak
  have hdedented : (!gap.isNone && !false && decide (place.column < indent)) = false := by
    rcases hcolumn with hnone | hle
    · simp [hnone]
    · simp [Nat.not_lt_of_le hle]
  have hcloses : (closesWord false c rest ||
      (!gap.isNone && closesPlain place.column (c :: rest))) = false := by
    rcases hplain with hnone | hplain
    · simp [hword, hnone]
    · simp [hword, hplain]
  rw [readPlain.eq_def]
  simp only [Place.look_whole hwhole, ok_bind]
  split
  · next heq => exact absurd (List.cons.inj heq).1 hreturn
  · next heq =>
    obtain ⟨rfl, rfl⟩ := List.cons.inj heq
    simp only [hbreak, hblank, hdedented, Gap.lookAtWord_whole hwhole, hcloses, ok_bind,
      Bool.false_eq_true, if_false]
    cases readPlain false indent .none place.next rest <;> rfl
  · next heq => cases heq

/-- A key ends before its colon. -/
theorem readPlain_colon (hwhole : place.view = .whole) :
    readPlain false indent .none place (':' :: ' ' :: rest) =
      .ok ⟨[], false, ⟨':' :: ' ' :: rest, place⟩⟩ := by
  rw [readPlain]
  simp only [Place.look_whole hwhole, ok_bind]
  rfl

/-- Nothing comes next, or something at the start of a line that is no spacing. -/
def StartsLine (text : List Char) : Prop :=
  ∀ c ∈ text.head?, isSpacing c = false

/-- A plain scalar ends before a line that is not indented. -/
theorem readPlain_dedented (hwhole : place.view = .whole) (hcolumn : place.column < indent)
    (hafter : StartsLine after) :
    readPlain false indent .folded place after = .ok ⟨[], true, ⟨after, place⟩⟩ := by
  have hdedented : (!Gap.folded.isNone && !false && decide (place.column < indent)) = true := by
    simpa [Gap.folded, Gap.isNone, Gap.hasBreak] using hcolumn
  rw [readPlain.eq_def]
  simp only [Place.look_whole hwhole, ok_bind]
  split
  · next heq => exact absurd (hafter '\r' rfl) (by decide)
  · next c rest _ =>
    obtain ⟨hblank, hbreak⟩ := isSpacing_eq_false_iff.mp (hafter c rfl)
    simp only [hbreak, hblank, hdedented, Bool.false_eq_true, if_false, if_true]
    rfl
  · simp only [hdedented, if_true]
    rfl

/-- What is read up to the end of a line. -/
def ReadsPlain (indent : Nat) (gap : Gap) (place : Place) (written text after : List Char) : Prop :=
  ∃ stop, readPlain false indent gap place written = .ok ⟨text, true, ⟨after, stop⟩⟩ ∧
    stop.view = .whole ∧ stop.column = 0

theorem ReadsPlain.space (hwhole : place.view = .whole)
    (hrest : ReadsPlain indent (gap.addBlank ' ') place.next rest text after) :
    ReadsPlain indent gap place (' ' :: rest) text after := by
  rw [ReadsPlain, readPlain_space hwhole]
  exact hrest

/-- A line that is broken at a space goes on after the indentation. -/
theorem ReadsPlain.folded (hwhole : place.view = .whole)
    (hrest : ReadsPlain indent .folded ((place.nextLine 1).advance 2) rest text after) :
    ReadsPlain indent .none place ('\n' :: indentation ++ rest) text after := by
  rw [ReadsPlain, List.cons_append, readPlain_newline hwhole]
  exact ReadsPlain.space hwhole (ReadsPlain.space hwhole hrest)

/-- The gap before a word and its first character belong to the text that is read. -/
theorem ReadsPlain.word (hwhole : place.view = .whole) (hspacing : isSpacing c = false)
    (hcolumn : indent ≤ place.column) (hword : closesWord false c rest = false)
    (hplain : gap.isNone = true ∨ closesPlain place.column (c :: rest) = false)
    (hrest : ReadsPlain indent .none place.next rest text after) :
    ReadsPlain indent gap place (c :: rest) (gap.text ++ c :: text) after := by
  obtain ⟨stop, hread, hstop⟩ := hrest
  refine ⟨stop, ?_, hstop⟩
  rw [readPlain_word hwhole hspacing (.inr hcolumn) hword hplain, hread]
  rfl

theorem writePlain_space {column : Nat} {afterSpace : Bool}
    (hbreaks : breaksAt column afterSpace rest = false) :
    writePlain column afterSpace (' ' :: rest) = ' ' :: writePlain (column + 1) true rest := by
  simp [writePlain, hbreaks]

theorem writePlain_break {column : Nat} {afterSpace : Bool}
    (hbreaks : breaksAt column afterSpace rest = true) :
    writePlain column afterSpace (' ' :: rest) =
      '\n' :: indentation ++ writePlain scalarIndent true rest := by
  simp [writePlain, hbreaks]

theorem writePlain_word (hc : c ≠ ' ') (column : Nat) (afterSpace : Bool) :
    writePlain column afterSpace (c :: rest) = c :: writePlain (column + 1) false rest := by
  simp [writePlain, hc]

/-- A line is broken at a single space in front of a word. -/
theorem of_breaksAt {column : Nat} {afterSpace : Bool}
    (hbreaks : breaksAt column afterSpace rest = true) :
    afterSpace = false ∧ rest.head?.any (· != ' ') = true := by
  simp only [breaksAt, Bool.and_eq_true, Bool.not_eq_true'] at hbreaks
  exact ⟨hbreaks.1.2, hbreaks.2⟩

/-- What the rest of a plain scalar must be like after some spaces, so that it does not
end inside. -/
structure StaysPlain (spaces text : List Char) : Prop where
  spacing : ∀ c ∈ text, isSpacing c = true → c = ' '
  space : text.getLast? ≠ some ' '
  inside : closesInside text = false
  first : spaces ≠ [] → text.head? ≠ some '#'
  ended : text = [] → spaces = []

/-- A text that nothing closes has no colon before a blank and no comment sign after
one. -/
theorem closesInside_cons_eq_false {d : Char}
    (hinside : closesInside (c :: d :: rest) = false) :
    closesInside (d :: rest) = false ∧ (c = ':' → isBlank d = false) ∧
      (isBlank c = true → d ≠ '#') := by
  simp only [closesInside, hasPair, List.getLast?_cons_cons, Bool.or_eq_false_iff,
    Bool.and_eq_false_iff] at hinside ⊢
  obtain ⟨⟨hlast, hcolon, hcolons⟩, hcomment, hcomments⟩ := hinside
  refine ⟨⟨⟨hlast, hcolons⟩, hcomments⟩, ?_, ?_⟩
  · rintro rfl
    simpa using hcolon
  · rintro hblank rfl
    simp [hblank] at hcomment

/-- What stays plain stays plain after its first character, with one more space in the gap
if that was a space. -/
theorem StaysPlain.tail {spaces : List Char} (hstays : StaysPlain spaces (c :: rest)) :
    StaysPlain (if c = ' ' then spaces ++ [' '] else []) rest := by
  have hspacing : ∀ d ∈ rest, isSpacing d = true → d = ' ' :=
    fun d hd => hstays.spacing d (List.mem_cons_of_mem c hd)
  cases rest with
  | nil =>
    have hc : c ≠ ' ' := by
      rintro rfl
      exact hstays.space rfl
    rw [if_neg hc]
    exact ⟨hspacing, by simp, rfl, by simp, fun _ => rfl⟩
  | cons d rest =>
    obtain ⟨hinside, -, hcomment⟩ := closesInside_cons_eq_false hstays.inside
    refine ⟨hspacing, hstays.space, hinside, ?_, by simp⟩
    split
    · next hc =>
      intro _ hhead
      exact hcomment (hc ▸ rfl) (Option.some.inj hhead)
    · exact fun hne => absurd rfl hne

theorem StaysPlain.isSpacing_eq_false {spaces : List Char} (hstays : StaysPlain spaces text)
    (hmem : c ∈ text) (hc : c ≠ ' ') : isSpacing c = false :=
  isSpacing_eq_false_of_ne (hstays.spacing c hmem) hc

/-- No character of a plain text closes a word, also if the line is broken after it. -/
theorem StaysPlain.closesWord_eq_false {spaces : List Char} {column : Nat} {afterSpace : Bool}
    (hstays : StaysPlain spaces (c :: rest)) :
    closesWord false c (writePlain column afterSpace rest ++ after) = false := by
  by_cases hc : c = ':'
  · subst hc
    cases rest with
    | nil => exact absurd hstays.inside (by decide)
    | cons d rest =>
      have hblank := (closesInside_cons_eq_false hstays.inside).2.1 rfl
      have hd : d ≠ ' ' := by
        rintro rfl
        exact absurd hblank (by decide)
      have hspacing := hstays.isSpacing_eq_false (List.mem_cons_of_mem _ List.mem_cons_self) hd
      simp [closesWord, writePlain_word hd, startsSpacing, hspacing]
  · simp [closesWord, hc]

/-- A plain text is read as it was before it was written, wherever its lines are
broken. -/
theorem readsPlain_write {spaces : List Char} {column : Nat} {afterSpace : Bool}
    (hafter : StartsLine after) (hindent : 0 < indent) (hscalar : indent ≤ scalarIndent)
    (hstays : StaysPlain spaces text) (hgap : gap.StandsFor text spaces)
    (hspaces : afterSpace = false → spaces = []) (hwhole : place.view = .whole)
    (hcolumn : indent ≤ place.column) :
    ReadsPlain indent gap place (writePlain column afterSpace text ++ '\n' :: after)
      (spaces ++ text) after := by
  -- the gap holds the spaces that are read and not yet known to be inside the scalar
  induction text generalizing spaces column afterSpace gap place with
  | nil =>
    cases hstays.ended rfl
    cases hgap.eq_none
    refine ⟨place.nextLine 1, ?_, hwhole, rfl⟩
    rw [writePlain, List.nil_append, readPlain_newline hwhole]
    exact readPlain_dedented hwhole hindent hafter
  | cons c rest ih =>
    by_cases hc : c = ' '
    · subst hc
      have hrest : StaysPlain (spaces ++ [' ']) rest := hstays.tail
      cases hbreaks : breaksAt column afterSpace rest with
      | false =>
        rw [writePlain_space hbreaks, List.append_cons spaces]
        exact .space hwhole (ih hrest hgap.addBlank (by simp) hwhole (Nat.le_succ_of_le hcolumn))
      | true =>
        obtain ⟨hnoSpace, hhead⟩ := of_breaksAt hbreaks
        cases hspaces hnoSpace
        cases hgap.eq_none
        rw [writePlain_break hbreaks, List.append_assoc]
        exact .folded hwhole (ih hrest (.folded hhead) (by simp) hwhole hscalar)
    · have hrest : StaysPlain [] rest := by simpa [hc] using hstays.tail
      have hplain : gap.isNone = true ∨ closesPlain place.column
          (c :: (writePlain (column + 1) false rest ++ '\n' :: after)) = false := by
        rw [hgap.isNone]
        by_cases hnone : spaces = []
        · exact .inl (List.isEmpty_iff.mpr hnone)
        · have hcomment : c ≠ '#' := fun hc => hstays.first hnone (hc ▸ rfl)
          have hedge : place.column ≠ 0 := by omega
          exact .inr (by simp [closesPlain, hcomment, hedge])
      rw [writePlain_word hc, List.cons_append, ← hgap.text]
      exact .word hwhole (hstays.isSpacing_eq_false List.mem_cons_self hc) hcolumn
        hstays.closesWord_eq_false hplain
        (ih hrest .none (fun _ => rfl) hwhole (Nat.le_succ_of_le hcolumn))

end Plain

/-! ## Escapes -/

/-- A digit above nine is read from its capital letter. -/
theorem hexValue?_toUpper_digitChar {digit : Nat} (hdigit : digit < 16) :
    Text.hexValue? (Nat.digitChar digit).toUpper = some digit := by
  have hall : (List.range 16).all fun digit =>
      Text.hexValue? (Nat.digitChar digit).toUpper == some digit := by decide
  simpa using List.all_eq_true.mp hall digit (List.mem_range.mpr hdigit)

theorem upperHex_succ (width code : Nat) : upperHex (width + 1) code =
    upperHex width (code / 16) ++ [(Nat.digitChar (code % 16)).toUpper] := by
  simp [upperHex, Text.hexDigits]

theorem length_upperHex (width code : Nat) : (upperHex width code).length = width := by
  induction width generalizing code with
  | zero => rfl
  | succ width ih => rw [upperHex_succ, List.length_append, ih, List.length_singleton]

/-- The digits of a code tell as much of it as there is room for. -/
theorem mapM_hexValue?_upperHex (width code : Nat) :
    ∃ values, (upperHex width code).mapM Text.hexValue? = some values ∧ values.length = width ∧
      Text.ofDigits 16 values = code % Nat.pow 16 width := by
  induction width generalizing code with
  | zero => exact ⟨[], rfl, rfl, (Nat.mod_one code).symm⟩
  | succ width ih =>
    obtain ⟨values, hvalues, hlength, hcode⟩ := ih (code / 16)
    refine ⟨values ++ [code % 16], ?_, by simp [hlength], ?_⟩
    · rw [upperHex_succ, List.mapM_append, hvalues]
      simp [hexValue?_toUpper_digitChar (Nat.mod_lt code (by decide : 16 > 0))]
    · rw [Text.ofDigits, List.foldl_append]
      change 16 * Text.ofDigits 16 values + code % 16 = _
      have hpow : Nat.pow 16 (width + 1) = 16 * Nat.pow 16 width := Nat.mul_comm _ _
      rw [hcode, hpow, Nat.mod_mul, Nat.add_comm]

/-- The code of a character, in digits, is read as that character. -/
theorem charOfDigits_upperHex {width : Nat} {c : Char} (hcode : c.toNat < Nat.pow 16 width) :
    charOfDigits width (upperHex width c.toNat) = .ok c := by
  obtain ⟨values, hvalues, hlength, hvalue⟩ := mapM_hexValue?_upperHex width c.toNat
  have hvalid : c.toNat.isValidChar := c.valid
  rw [Nat.mod_eq_of_lt hcode] at hvalue
  simp [charOfDigits, hvalues, hlength, hvalue, hvalid]

theorem mem_escapeLetters {c letter : Char} (hlookup : escapeLetters.lookup c = some letter) :
    (c, letter) ∈ escapeLetters := by
  obtain ⟨front, others, heq, -⟩ := List.lookup_eq_some_iff.mp hlookup
  exact heq ▸ List.mem_append_right front List.mem_cons_self

/-- Every letter that is written for a character is read as that character. -/
theorem escapedChar?_of_lookup {c letter : Char} (hlookup : escapeLetters.lookup c = some letter) :
    isLineBreak letter = false ∧ codeWidth? letter = none ∧ escapedChar? letter = some c := by
  have hall : escapeLetters.all fun pair => !isLineBreak pair.2 && (codeWidth? pair.2).isNone &&
      escapedChar? pair.2 == some pair.1 := by decide
  have hpair := List.all_eq_true.mp hall _ (mem_escapeLetters hlookup)
  simp only [Bool.and_eq_true, Bool.not_eq_true', Option.isNone_iff_eq_none, beq_iff_eq] at hpair
  exact ⟨hpair.1.1, hpair.1.2, hpair.2⟩

/-! ## Quoted scalars -/

/-- What a reader of quoted scalars makes of a text up to the closing quote. -/
def ReadsQuoted (read : Gap → Place → List Char → Except Fault QuotedScalar) (gap : Gap)
    (place : Place) (written text after : List Char) : Prop :=
  ∃ stop, read gap place written = .ok ⟨text, ⟨after, stop⟩⟩ ∧ stop.view = .whole

/-- A step of a reader puts its characters in front of what the rest is read as. -/
theorem ReadsQuoted.of_step {read : Gap → Place → List Char → Except Fault QuotedScalar}
    {gap next : Gap} {place later : Place} {written rest text front after : List Char}
    (hstep : read gap place written = (read next later rest).map (.after front))
    (hrest : ReadsQuoted read next later rest text after) :
    ReadsQuoted read gap place written (front ++ text) after := by
  obtain ⟨stop, hread, hstop⟩ := hrest
  refine ⟨stop, ?_, hstop⟩
  rw [hstep, hread]
  rfl

/-- A reader for which a line break and the indentation after it are a gap. -/
structure FoldsLines (read : Gap → Place → List Char → Except Fault QuotedScalar) : Prop where
  space : ∀ {gap : Gap} {place : Place} {rest : List Char}, place.view = .whole →
    read gap place (' ' :: rest) = read (gap.addBlank ' ') place.next rest
  newline : ∀ {gap : Gap} {place : Place} {rest : List Char}, place.view = .whole →
    read gap place ('\n' :: rest) = read (gap.addBreak '\n') (place.nextLine 1) rest

section Folding

variable {read : Gap → Place → List Char → Except Fault QuotedScalar} {gap : Gap} {place : Place}
  {rest text after : List Char}

/-- A space inside quotes goes into the gap. -/
theorem ReadsQuoted.space (hfolds : FoldsLines read) (hwhole : place.view = .whole)
    (hrest : ReadsQuoted read (gap.addBlank ' ') place.next rest text after) :
    ReadsQuoted read gap place (' ' :: rest) text after := by
  rw [ReadsQuoted, hfolds.space hwhole]
  exact hrest

/-- A broken line inside quotes reads as one space. -/
theorem ReadsQuoted.folded (hfolds : FoldsLines read) (hwhole : place.view = .whole)
    (hrest : ReadsQuoted read .folded ((place.nextLine 1).advance 2) rest text after) :
    ReadsQuoted read .none place ('\n' :: indentation ++ rest) text after := by
  rw [ReadsQuoted, List.cons_append, hfolds.newline hwhole]
  exact space hfolds hwhole (space hfolds hwhole hrest)

end Folding

section SingleQuoted

variable {gap : Gap} {place : Place} {c : Char} {rest after text : List Char}

theorem foldsLines_readSingleQuoted : FoldsLines readSingleQuoted where
  space hwhole := by
    rw [readSingleQuoted]
    simp only [Place.look_whole hwhole, ok_bind]
    rfl
  newline hwhole := by
    rw [readSingleQuoted]
    simp only [Place.look_whole hwhole, ok_bind]
    rfl

/-- Two single quotes stand for one. -/
theorem readSingleQuoted_quote (hwhole : place.view = .whole) :
    readSingleQuoted gap place ('\'' :: '\'' :: rest) =
      (readSingleQuoted .none (place.advance 2) rest).map (.after (gap.text ++ ['\''])) := by
  rw [readSingleQuoted]
  simp only [Place.look_whole hwhole, Gap.lookAtWord_whole hwhole, ok_bind]
  rfl

/-- A single quote at the end of a line closes the text. -/
theorem readSingleQuoted_close (hwhole : place.view = .whole) :
    readSingleQuoted gap place ('\'' :: '\n' :: rest) =
      .ok ⟨gap.text, ⟨'\n' :: rest, place.next⟩⟩ := by
  rw [readSingleQuoted]
  simp only [Place.look_whole hwhole, Gap.lookAtWord_whole hwhole, ok_bind]
  rfl

theorem readSingleQuoted_word (hwhole : place.view = .whole) (hspacing : isSpacing c = false)
    (hc : c ≠ '\'') (hcolumn : 0 < place.column) :
    readSingleQuoted gap place (c :: rest) =
      (readSingleQuoted .none place.next rest).map (.after (gap.text ++ [c])) := by
  obtain ⟨hblank, hbreak⟩ := isSpacing_eq_false_iff.mp hspacing
  have hreturn := ne_return_of_isLineBreak hbreak
  have hedge : (place.column == 0) = false := beq_eq_false_iff_ne.mpr (Nat.ne_of_gt hcolumn)
  rw [readSingleQuoted.eq_def]
  simp only [Place.look_whole hwhole, ok_bind]
  split
  · next heq => exact absurd (List.cons.inj heq).1 hreturn
  · next heq => exact absurd (List.cons.inj heq).1 hc
  · next heq => exact absurd (List.cons.inj heq).1 hc
  · next heq =>
    obtain ⟨rfl, rfl⟩ := List.cons.inj heq
    simp only [hbreak, hblank, Gap.lookAtWord_whole hwhole, hedge, ok_bind, Bool.false_and,
      Bool.false_eq_true, if_false]
    rfl
  · next heq => cases heq

theorem writeSingleQuoted_space {column : Nat} {afterSpace : Bool}
    (hbreaks : breaksAt column afterSpace rest = false) :
    writeSingleQuoted column afterSpace false (' ' :: rest) =
      ' ' :: writeSingleQuoted (column + 1) true false rest := by
  simp [writeSingleQuoted, hbreaks]

theorem writeSingleQuoted_break {column : Nat} {afterSpace : Bool}
    (hbreaks : breaksAt column afterSpace rest = true) :
    writeSingleQuoted column afterSpace false (' ' :: rest) =
      '\n' :: indentation ++ writeSingleQuoted scalarIndent true false rest := by
  simp [writeSingleQuoted, hbreaks]

/-- A quote is written twice, any other character as it is. -/
theorem writeSingleQuoted_word (hspacing : isSpacing c = false) (column : Nat)
    (afterSpace : Bool) :
    ∃ later, writeSingleQuoted column afterSpace false (c :: rest) =
      (if c = '\'' then ['\'', '\''] else [c]) ++ writeSingleQuoted later false false rest := by
  have hc : c ≠ ' ' := by
    rintro rfl
    exact absurd hspacing (by decide)
  have hbreak := (isSpacing_eq_false_iff.mp hspacing).2
  refine ⟨column + (if c = '\'' then ['\'', '\''] else [c]).length, ?_⟩
  simp [writeSingleQuoted, hc, hbreak]

/-- A text in single quotes is read as it was before it was written. -/
theorem readsSingleQuoted_write {spaces : List Char} {column : Nat} {afterSpace : Bool}
    (hspacing : ∀ c ∈ text, isSpacing c = true → c = ' ') (hgap : gap.StandsFor text spaces)
    (hspaces : afterSpace = false → spaces = []) (hwhole : place.view = .whole)
    (hcolumn : 0 < place.column) :
    ReadsQuoted readSingleQuoted gap place
      (writeSingleQuoted column afterSpace false text ++ '\'' :: '\n' :: after)
      (spaces ++ text) ('\n' :: after) := by
  induction text generalizing spaces column afterSpace gap place with
  | nil =>
    refine ⟨place.next, ?_, hwhole⟩
    rw [writeSingleQuoted, List.nil_append, readSingleQuoted_close hwhole, hgap.text,
      List.append_nil]
  | cons c rest ih =>
    have hothers : ∀ d ∈ rest, isSpacing d = true → d = ' ' :=
      fun d hd => hspacing d (List.mem_cons_of_mem c hd)
    by_cases hc : c = ' '
    · subst hc
      cases hbreaks : breaksAt column afterSpace rest with
      | false =>
        rw [writeSingleQuoted_space hbreaks, List.append_cons spaces]
        exact .space foldsLines_readSingleQuoted hwhole
          (ih hothers hgap.addBlank (by simp) hwhole (Nat.succ_pos _))
      | true =>
        obtain ⟨hnoSpace, hhead⟩ := of_breaksAt hbreaks
        cases hspaces hnoSpace
        cases hgap.eq_none
        rw [writeSingleQuoted_break hbreaks, List.append_assoc]
        exact .folded foldsLines_readSingleQuoted hwhole
          (ih hothers (.folded hhead) (by simp) hwhole (Nat.succ_pos _))
    · have hword := isSpacing_eq_false_of_ne (hspacing c List.mem_cons_self) hc
      obtain ⟨later, hlater⟩ := writeSingleQuoted_word hword column afterSpace
      rw [hlater, List.append_assoc, List.append_cons spaces c rest, ← hgap.text]
      split
      · next hquote =>
        subst hquote
        exact .of_step (readSingleQuoted_quote hwhole)
          (ih hothers .none (fun _ => rfl) hwhole (Nat.succ_pos _))
      · next hquote =>
        exact .of_step (readSingleQuoted_word hwhole hword hquote hcolumn)
          (ih hothers .none (fun _ => rfl) hwhole (Nat.succ_pos _))

end SingleQuoted

section DoubleQuoted

variable {gap : Gap} {place : Place} {c letter : Char} {rest after text : List Char}

theorem foldsLines_readDoubleQuoted : FoldsLines readDoubleQuoted where
  space hwhole := by
    rw [readDoubleQuoted.eq_def]
    simp only [Place.look_whole hwhole, ok_bind]
    rfl
  newline hwhole := by
    rw [readDoubleQuoted.eq_def]
    simp only [Place.look_whole hwhole, ok_bind]
    rfl

theorem readDoubleQuoted_close (hwhole : place.view = .whole) :
    readDoubleQuoted gap place ('"' :: rest) = .ok ⟨gap.text, ⟨rest, place.next⟩⟩ := by
  rw [readDoubleQuoted.eq_def]
  simp only [Place.look_whole hwhole, Gap.lookAtWord_whole hwhole, ok_bind]
  split <;> rfl

/-- What follows a backslash decides all, unless it breaks the line. -/
theorem readDoubleQuoted_escape (hwhole : place.view = .whole)
    (hbreak : isLineBreak letter = false) :
    readDoubleQuoted gap place ('\\' :: letter :: rest) =
      match codeWidth? letter, escapedChar? letter with
      | some width, _ => do
        let c ← (charOfDigits width (rest.take width)).mapError (Fault.text place.line)
        let scalar ← readDoubleQuoted .none ((place.advance 2).advance width) (rest.drop width)
        return scalar.after (gap.text ++ [c])
      | none, some c => do
        let scalar ← readDoubleQuoted .none (place.advance 2) rest
        return scalar.after (gap.text ++ [c])
      | none, none => throw (.text place.line .unknownEscape) := by
  have hlater : (place.advance 2).view = .whole := hwhole
  have hreturn := ne_return_of_isLineBreak hbreak
  rw [readDoubleQuoted.eq_def]
  simp only [Place.look_whole hwhole, ok_bind]
  split
  · next heq => cases heq
  · next heq => cases heq
  · next heq => exact absurd (List.cons.inj (List.cons.inj heq).2).1 hreturn
  · next heq =>
    simp only [List.cons.injEq, true_and] at heq
    obtain ⟨rfl, rfl⟩ := heq
    simp only [hbreak, Gap.lookAtWord_whole hwhole, Place.look_whole hlater, ok_bind,
      Bool.false_eq_true, if_false]
    rfl
  · next hother heq =>
    cases heq
    exact (hother letter rest rfl rfl).elim
  · next heq => cases heq

/-- An escape of one letter is read as the character that it stands for. -/
theorem readDoubleQuoted_letter (hwhole : place.view = .whole)
    (hbreak : isLineBreak letter = false) (hwidth : codeWidth? letter = none)
    (hletter : escapedChar? letter = some c) :
    readDoubleQuoted gap place ('\\' :: letter :: rest) =
      (readDoubleQuoted .none (place.advance 2) rest).map (.after (gap.text ++ [c])) := by
  rw [readDoubleQuoted_escape hwhole hbreak, hwidth, hletter]
  rfl

/-- An escape with a code is read as the character with that code. -/
theorem readDoubleQuoted_code {width : Nat} {digits : List Char} (hwhole : place.view = .whole)
    (hbreak : isLineBreak letter = false) (hwidth : codeWidth? letter = some width)
    (hlength : digits.length = width) (hcode : charOfDigits width digits = .ok c) :
    readDoubleQuoted gap place ('\\' :: letter :: digits ++ rest) =
      (readDoubleQuoted .none ((place.advance 2).advance width) rest).map
        (.after (gap.text ++ [c])) := by
  rw [List.cons_append, List.cons_append, readDoubleQuoted_escape hwhole hbreak, hwidth]
  simp only [List.take_left' hlength, List.drop_left' hlength, hcode]
  rfl

theorem readDoubleQuoted_word (hwhole : place.view = .whole) (hspacing : isSpacing c = false)
    (hquote : c ≠ '"') (hescape : c ≠ '\\') (hcolumn : 0 < place.column) :
    readDoubleQuoted gap place (c :: rest) =
      (readDoubleQuoted .none place.next rest).map (.after (gap.text ++ [c])) := by
  obtain ⟨hblank, hbreak⟩ := isSpacing_eq_false_iff.mp hspacing
  have hreturn := ne_return_of_isLineBreak hbreak
  have hedge : (place.column == 0) = false := beq_eq_false_iff_ne.mpr (Nat.ne_of_gt hcolumn)
  have hplain : (c == '\\') = false := by simpa using hescape
  rw [readDoubleQuoted.eq_def]
  simp only [Place.look_whole hwhole, ok_bind]
  split
  · next heq => exact absurd (List.cons.inj heq).1 hreturn
  · next heq => exact absurd (List.cons.inj heq).1 hquote
  · next heq => exact absurd (List.cons.inj heq).1 hescape
  · next heq => exact absurd (List.cons.inj heq).1 hescape
  · next heq =>
    obtain ⟨rfl, rfl⟩ := List.cons.inj heq
    simp only [hbreak, hblank, hplain, Gap.lookAtWord_whole hwhole, hedge, ok_bind, Bool.false_and,
      Bool.false_eq_true, if_false]
    rfl
  · next heq => cases heq

theorem ReadsQuoted.double_escaped_space (hwhole : place.view = .whole)
    (hrest : ReadsQuoted readDoubleQuoted .none (place.advance 2) rest text after) :
    ReadsQuoted readDoubleQuoted gap place ('\\' :: ' ' :: rest) (gap.text ++ ' ' :: text)
      after := by
  rw [List.append_cons gap.text ' ' text]
  exact .of_step (readDoubleQuoted_letter hwhole rfl rfl rfl) hrest

/-- An escape is read as the character that it was written for. -/
theorem ReadsQuoted.double_escaped (hwhole : place.view = .whole)
    (hrest : ∀ later : Place, later.view = .whole → 0 < later.column →
      ReadsQuoted readDoubleQuoted .none later rest text after) :
    ReadsQuoted readDoubleQuoted gap place (escaped c ++ rest) (gap.text ++ c :: text) after := by
  have hcode : ∀ letter width, isLineBreak letter = false → codeWidth? letter = some width →
      c.toNat < Nat.pow 16 width →
      ReadsQuoted readDoubleQuoted gap place ('\\' :: letter :: upperHex width c.toNat ++ rest)
        (gap.text ++ c :: text) after := by
    intro letter width hbreak hwidth hfits
    rw [List.append_cons gap.text c text]
    exact .of_step (readDoubleQuoted_code hwhole hbreak hwidth (length_upperHex width c.toNat)
      (charOfDigits_upperHex hfits)) (hrest _ hwhole (Nat.add_pos_left (Nat.succ_pos _) width))
  unfold escaped
  split
  · next letter hletter =>
    obtain ⟨hbreak, hwidth, hletter⟩ := escapedChar?_of_lookup hletter
    rw [List.append_cons gap.text c text]
    exact .of_step (readDoubleQuoted_letter hwhole hbreak hwidth hletter)
      (hrest _ hwhole (Nat.succ_pos _))
  · dsimp only
    split
    · next hsmall => exact hcode 'x' 2 rfl rfl (Nat.lt_of_le_of_lt hsmall (by decide))
    · split
      · next hsmall => exact hcode 'u' 4 rfl rfl (Nat.lt_of_le_of_lt hsmall (by decide))
      · have hlimit : c.toNat < 0x110000 := by
          rcases c.valid with hlow | hhigh
          · exact Nat.lt_trans hlow (by decide)
          · exact hhigh.2
        exact hcode 'U' 8 rfl rfl (Nat.lt_trans hlimit (by decide))

theorem writeDoubleQuoted_space {column : Nat} {afterSpace : Bool}
    (hbreaks : (lineWidth < column && !afterSpace && !rest.isEmpty) = false) :
    writeDoubleQuoted column afterSpace (' ' :: rest) =
      ' ' :: writeDoubleQuoted (column + 1) true rest := by
  simp only [writeDoubleQuoted, hbreaks]
  rfl

theorem writeDoubleQuoted_break {column : Nat} {afterSpace : Bool}
    (hbreaks : (lineWidth < column && !afterSpace && !rest.isEmpty) = true)
    (hhead : rest.head? ≠ some ' ') :
    writeDoubleQuoted column afterSpace (' ' :: rest) =
      '\n' :: indentation ++ writeDoubleQuoted scalarIndent true rest := by
  simp only [writeDoubleQuoted, hbreaks]
  simp [hhead, indentation, scalarIndent]

/-- A space after a line break is escaped. -/
theorem writeDoubleQuoted_break_space {column : Nat} {afterSpace : Bool}
    (hbreaks : (lineWidth < column && !afterSpace) = true) :
    writeDoubleQuoted column afterSpace (' ' :: ' ' :: rest) =
      '\n' :: indentation ++ '\\' :: ' ' :: writeDoubleQuoted (scalarIndent + 2) true rest := by
  rw [writeDoubleQuoted]
  simp only [hbreaks]
  simp [writeDoubleQuoted, indentation, scalarIndent]

/-- A character is written as it is or escaped, and the line goes on. -/
theorem writeDoubleQuoted_word (hc : c ≠ ' ') (column : Nat) (afterSpace : Bool) :
    ∃ later, writeDoubleQuoted column afterSpace (c :: rest) =
      (if isUnescaped c then [c] else escaped c) ++ writeDoubleQuoted later false rest := by
  refine ⟨column + (if isUnescaped c then [c] else escaped c).length, ?_⟩
  simp [writeDoubleQuoted, hc]

/-- What is written as it is means nothing else inside double quotes. -/
theorem of_isUnescaped (hc : c ≠ ' ') (hunescaped : isUnescaped c = true) :
    isSpacing c = false ∧ c ≠ '"' ∧ c ≠ '\\' := by
  simp only [isUnescaped, Bool.and_eq_true, Bool.not_eq_true', bne_iff_ne] at hunescaped
  obtain ⟨⟨⟨hdirect, hbreak⟩, hquote⟩, hescape⟩ := hunescaped
  have htab : c ≠ '\t' := by
    rintro rfl
    exact absurd hdirect (by decide)
  exact ⟨isSpacing_eq_false_iff.mpr ⟨by simp [isBlank, hc, htab], hbreak⟩, hquote, hescape⟩

/-- From wherever a text is written on between double quotes, it is read back. -/
def ReadsBack (after text : List Char) : Prop :=
  ∀ ⦃spaces : List Char⦄ ⦃gap : Gap⦄ ⦃place : Place⦄ ⦃column : Nat⦄ ⦃afterSpace : Bool⦄,
    gap.StandsFor text spaces → (afterSpace = false → spaces = []) → place.view = .whole →
    0 < place.column → ReadsQuoted readDoubleQuoted gap place
      (writeDoubleQuoted column afterSpace text ++ '"' :: after) (spaces ++ text) after

theorem readsBack_nil : ReadsBack after [] := by
  intro spaces gap place column afterSpace hgap hspaces hwhole hcolumn
  refine ⟨place.next, ?_, hwhole⟩
  rw [writeDoubleQuoted, List.nil_append, readDoubleQuoted_close hwhole, hgap.text,
    List.append_nil]

/-- One character more in front of a text that is read back. -/
theorem ReadsBack.word (hc : c ≠ ' ') (hrest : ReadsBack after rest) :
    ReadsBack after (c :: rest) := by
  intro spaces gap place column afterSpace hgap hspaces hwhole hcolumn
  obtain ⟨later, hlater⟩ := writeDoubleQuoted_word hc column afterSpace
  rw [hlater, List.append_assoc, ← hgap.text]
  split
  · next hunescaped =>
    obtain ⟨hspacing, hquote, hescape⟩ := of_isUnescaped hc hunescaped
    rw [List.append_cons gap.text c rest]
    exact .of_step (readDoubleQuoted_word hwhole hspacing hquote hescape hcolumn)
      (hrest .none (fun _ => rfl) hwhole (Nat.succ_pos _))
  · apply ReadsQuoted.double_escaped hwhole
    intro later hlater hpositive
    exact hrest .none (fun _ => rfl) hlater hpositive

/-- Where a line is broken, another space is escaped, and what comes after that is read
on without a gap. -/
theorem ReadsBack.line_break {column : Nat} (hrest : ReadsBack after rest)
    (htail : ReadsBack after rest.tail) (hwhole : place.view = .whole)
    (hbreaks : (lineWidth < column && !false && !rest.isEmpty) = true) :
    ReadsQuoted readDoubleQuoted .none place
      (writeDoubleQuoted column false (' ' :: rest) ++ '"' :: after) (' ' :: rest) after := by
  cases rest with
  | nil => simp at hbreaks
  | cons d others =>
    by_cases hd : d = ' '
    · subst hd
      have hothers : ReadsQuoted readDoubleQuoted .none (((place.nextLine 1).advance 2).advance 2)
          (writeDoubleQuoted (scalarIndent + 2) true others ++ '"' :: after) others after :=
        htail .none (fun _ => rfl) hwhole (Nat.succ_pos _)
      rw [writeDoubleQuoted_break_space (by simpa using hbreaks), List.append_assoc]
      exact .folded foldsLines_readDoubleQuoted hwhole (.double_escaped_space hwhole hothers)
    · have hfolded : Gap.folded.StandsFor (d :: others) [' '] := .folded (by simpa using hd)
      rw [writeDoubleQuoted_break hbreaks (by simpa using hd), List.append_assoc]
      exact .folded foldsLines_readDoubleQuoted hwhole
        (hrest hfolded (by simp) hwhole (Nat.succ_pos _))

/-- One space more in front.  After a broken line the next space is escaped, so the text
after that counts as well. -/
theorem ReadsBack.space (hrest : ReadsBack after rest) (htail : ReadsBack after rest.tail) :
    ReadsBack after (' ' :: rest) := by
  intro spaces gap place column afterSpace hgap hspaces hwhole hcolumn
  cases hbreaks : lineWidth < column && !afterSpace && !rest.isEmpty with
  | false =>
    rw [writeDoubleQuoted_space hbreaks, List.append_cons spaces]
    exact .space foldsLines_readDoubleQuoted hwhole
      (hrest hgap.addBlank (by simp) hwhole (Nat.succ_pos _))
  | true =>
    have hnoSpace : afterSpace = false := by
      simp only [Bool.and_eq_true, Bool.not_eq_true'] at hbreaks
      exact hbreaks.1.2
    subst hnoSpace
    cases hspaces rfl
    cases hgap.eq_none
    exact hrest.line_break htail hwhole hbreaks

/-- A text in double quotes is read as it was before it was written. -/
theorem readsDoubleQuoted_write (after text : List Char) : ReadsBack after text := by
  -- two spaces at a line break are passed at once, so the tail of the rest is needed too
  have hboth : ReadsBack after text ∧ ReadsBack after text.tail := by
    induction text with
    | nil => exact ⟨readsBack_nil, readsBack_nil⟩
    | cons c rest ih =>
      refine ⟨?_, ih.1⟩
      by_cases hc : c = ' '
      · subst hc
        exact ih.1.space ih.2
      · exact ih.1.word hc
  exact hboth.1

/-- Characters that are all escaped are read back one by one. -/
theorem readsDoubleQuoted_escaped (hwhole : place.view = .whole) :
    ReadsQuoted readDoubleQuoted .none place (text.flatMap escaped ++ '"' :: after) text after := by
  induction text generalizing place with
  | nil => exact ⟨place.next, readDoubleQuoted_close hwhole, hwhole⟩
  | cons c rest ih =>
    rw [List.flatMap_cons, List.append_assoc]
    exact .double_escaped hwhole fun later hlater _ => ih hlater

end DoubleQuoted

/-! ## Styles -/

section Styles

variable {c : Char} {text after : List Char}

/-- A text without line breaks. -/
def IsOneLine (text : String) : Prop :=
  text.toList.all (fun c => !isLineBreak c) = true

instance (text : String) : Decidable (IsOneLine text) :=
  inferInstanceAs (Decidable (_ = true))

theorem IsOneLine.isLineBreak_eq_false {text : String} (hline : IsOneLine text)
    (hmem : c ∈ text.toList) : isLineBreak c = false :=
  Bool.not_eq_true' _ ▸ List.all_eq_true.mp hline c hmem

/-- What a text is like for which a style is chosen. -/
theorem of_styleOf (text : String) :
    (styleOf text = .plain → isPlainText text = true ∧ canBePlain text.toList = true) ∧
      (styleOf text = .singleQuoted → canBeSingleQuoted text.toList = true) ∧
      (styleOf text = .literal → '\n' ∈ text.toList) := by
  unfold styleOf
  dsimp only
  repeat' split
  all_goals simp_all

/-- A text of one line is never written as a block. -/
theorem styleOf_ne_literal {text : String} (hline : IsOneLine text) : styleOf text ≠ .literal := by
  intro hstyle
  exact absurd (hline.isLineBreak_eq_false ((of_styleOf text).2.2 hstyle)) (by decide)

/-- How a text of one line is read when it has been written. -/
def writtenScalar (text : String) : Scalar :=
  ⟨text, styleOf text == .plain⟩

/-- The only spacing that can be written directly in a line is a space. -/
theorem eq_space_of_isDirect (hdirect : isDirect c = true) (hbreak : isLineBreak c = false)
    (hspacing : isSpacing c = true) : c = ' ' := by
  rw [isSpacing, hbreak, Bool.or_false, isBlank, Bool.or_eq_true, beq_iff_eq,
    beq_iff_eq] at hspacing
  rcases hspacing with hspace | rfl
  · exact hspace
  · exact absurd hdirect (by decide)

/-- A text that may be written without quotes has nothing in it that would end it. -/
theorem staysPlain_of_canBePlain (hplain : canBePlain text = true) : StaysPlain [] text := by
  simp only [canBePlain, Bool.and_eq_true, Bool.not_eq_true', bne_iff_ne,
    List.all_eq_true] at hplain
  obtain ⟨⟨⟨-, hspace⟩, hinside⟩, hdirect⟩ := hplain
  refine ⟨?_, hspace, hinside, fun hne => absurd rfl hne, fun _ => rfl⟩
  intro c hmem hspacing
  exact eq_space_of_isDirect (hdirect c hmem).1 (hdirect c hmem).2 hspacing

/-- What can open a plain text: no spacing and no sign, except three signs that may stand
before a word. -/
theorem opensPlain_eq_true_iff {rest : List Char} : opensPlain false (c :: rest) = true ↔
    if c ∈ ['-', '?', ':'] then startsSpacing rest = false
    else isSpacing c = false ∧ isIndicator c = false := by
  by_cases hdash : c = '-'
  · simp [opensPlain, hdash]
  · by_cases hmark : c = '?' ∨ c = ':'
    · simp [opensPlain, hdash, hmark]
    · simp [opensPlain, hdash, hmark]

theorem of_opensPlain {rest : List Char} (hopens : opensPlain false (c :: rest) = true) :
    isSpacing c = false ∧ c ≠ '#' := by
  rw [opensPlain_eq_true_iff] at hopens
  split at hopens
  · next hmark =>
    simp only [List.mem_cons, List.not_mem_nil, or_false] at hmark
    rcases hmark with rfl | rfl | rfl <;> exact ⟨by decide, by decide⟩
  · refine ⟨hopens.1, ?_⟩
    rintro rfl
    exact absurd hopens.2 (by decide)

theorem startsSpacing_write {column : Nat} {afterSpace : Bool}
    (hstarts : startsSpacing text = false) :
    startsSpacing (writePlain column afterSpace text ++ after) = false := by
  cases text with
  | nil => cases hstarts
  | cons c rest =>
    have hc : c ≠ ' ' := by
      rintro rfl
      exact absurd hstarts (by simp [startsSpacing, isSpacing, isBlank])
    rw [writePlain_word hc]
    exact hstarts

/-- A text that opens a plain scalar does so too when it is written. -/
theorem opensPlain_write {column : Nat} (hopens : opensPlain false text = true) :
    ∃ c rest, writePlain column false text ++ after = c :: rest ∧
      opensPlain false (c :: rest) = true := by
  cases text with
  | nil => cases hopens
  | cons c rest =>
    have hc : c ≠ ' ' := by
      rintro rfl
      exact absurd (of_opensPlain hopens).1 (by decide)
    refine ⟨c, writePlain (column + 1) false rest ++ after, by rw [writePlain_word hc]; rfl, ?_⟩
    rw [opensPlain_eq_true_iff] at hopens ⊢
    split at hopens
    · next hmark => exact (if_pos hmark).mpr (startsSpacing_write hopens)
    · next hmark => exact (if_neg hmark).mpr hopens

end Styles

/-! ## Characters -/

theorem isOrdinary_append (left right : List Char) :
    Source.isOrdinary (left ++ right) = (Source.isOrdinary left && Source.isOrdinary right) :=
  List.all_append

theorem isOrdinary_cons (c : Char) (rest : List Char) :
    Source.isOrdinary (c :: rest) = (Source.isOrdinary [c] && Source.isOrdinary rest) :=
  isOrdinary_append [c] rest

/-- What is written directly needs no attention to how it comes into view. -/
theorem isOrdinary_of_isDirect {c : Char} (hdirect : isDirect c = true) :
    Source.isOrdinary [c] = true := by
  have hmark : c ≠ '\ufeff' := by
    rintro rfl
    exact absurd hdirect (by decide)
  have hallowed : isAllowed c = true := by
    simp only [isDirect, isAllowed, Bool.or_eq_true, Bool.and_eq_true, beq_iff_eq, bne_iff_ne,
      decide_eq_true_eq] at hdirect ⊢
    grind
  simp [Source.isOrdinary, hallowed, hmark]

theorem isOrdinary_upperHex (width code : Nat) :
    Source.isOrdinary (upperHex width code) = true := by
  induction width generalizing code with
  | zero => rfl
  | succ width ih =>
    have hdigits : (List.range 16).all fun digit =>
        Source.isOrdinary [(Nat.digitChar digit).toUpper] := by decide
    have hdigit := List.all_eq_true.mp hdigits (code % 16)
      (List.mem_range.mpr (Nat.mod_lt code (by decide)))
    rw [upperHex_succ, isOrdinary_append, ih, hdigit, Bool.and_self]

/-- Every escape is made of ordinary characters. -/
theorem isOrdinary_escaped (c : Char) : Source.isOrdinary (escaped c) = true := by
  have hcode : ∀ letter width, Source.isOrdinary ['\\', letter] = true →
      Source.isOrdinary ('\\' :: letter :: upperHex width c.toNat) = true := by
    intro letter width hletter
    have hsplit : '\\' :: letter :: upperHex width c.toNat =
        ['\\', letter] ++ upperHex width c.toNat := rfl
    rw [hsplit, isOrdinary_append, hletter, isOrdinary_upperHex, Bool.and_self]
  unfold escaped
  split
  · next letter hlookup =>
    have hletters : escapeLetters.all fun pair => Source.isOrdinary ['\\', pair.2] := by decide
    exact List.all_eq_true.mp hletters (c, letter) (mem_escapeLetters hlookup)
  · dsimp only
    split
    · exact hcode 'x' 2 (by decide)
    · split
      · exact hcode 'u' 4 (by decide)
      · exact hcode 'U' 8 (by decide)

theorem isOrdinary_writePlain {text : List Char} (hdirect : ∀ c ∈ text, isDirect c = true)
    (column : Nat) (afterSpace : Bool) :
    Source.isOrdinary (writePlain column afterSpace text) = true := by
  fun_induction writePlain column afterSpace text with
  | case1 => rfl
  | case2 _ _ c rest _ _ ih =>
    rw [isOrdinary_append, ih (List.forall_mem_cons.mp hdirect).2]
    decide
  | case3 _ _ c rest _ _ ih => exact ih (List.forall_mem_cons.mp hdirect).2
  | case4 _ _ c rest _ ih =>
    obtain ⟨hc, hrest⟩ := List.forall_mem_cons.mp hdirect
    rw [isOrdinary_cons, isOrdinary_of_isDirect hc, ih hrest, Bool.and_self]

theorem isOrdinary_writeSingleQuoted {text : List Char} (hdirect : ∀ c ∈ text, isDirect c = true)
    (column : Nat) (afterSpace afterBreak : Bool) :
    Source.isOrdinary (writeSingleQuoted column afterSpace afterBreak text) = true := by
  fun_induction writeSingleQuoted column afterSpace afterBreak text with
  | case1 => rfl
  | case2 _ _ _ c rest _ _ ih =>
    rw [isOrdinary_append, ih (List.forall_mem_cons.mp hdirect).2]
    decide
  | case3 _ _ _ c rest _ _ ih => exact ih (List.forall_mem_cons.mp hdirect).2
  | case4 _ _ _ c rest _ _ ih =>
    obtain ⟨hc, hrest⟩ := List.forall_mem_cons.mp hdirect
    rw [isOrdinary_cons, isOrdinary_of_isDirect hc, ih hrest, Bool.and_self]
  | case5 _ _ afterBreak c rest _ _ written ih =>
    obtain ⟨hc, hrest⟩ := List.forall_mem_cons.mp hdirect
    have hwritten : Source.isOrdinary written = true := by
      rw [isOrdinary_append, Bool.and_eq_true]
      constructor
      · split <;> decide
      · split
        · decide
        · exact isOrdinary_of_isDirect hc
    rw [isOrdinary_append, hwritten, ih hrest, Bool.and_self]

theorem isOrdinary_writeDoubleQuoted (column : Nat) (afterSpace : Bool) (text : List Char) :
    Source.isOrdinary (writeDoubleQuoted column afterSpace text) = true := by
  fun_induction writeDoubleQuoted column afterSpace text with
  | case1 => rfl
  | case2 _ _ c rest _ _ start ih =>
    have hstart : Source.isOrdinary ('\n' :: start) = true := by
      rw [isOrdinary_cons, isOrdinary_append]
      split <;> decide
    rw [isOrdinary_append, hstart, ih, Bool.and_self]
  | case3 _ _ c rest _ _ ih => exact ih
  | case4 _ _ c rest _ written ih =>
    have hwritten : Source.isOrdinary written = true := by
      dsimp only [written]
      split
      · next hunescaped =>
        simp only [isUnescaped, Bool.and_eq_true] at hunescaped
        exact isOrdinary_of_isDirect hunescaped.1.1.1
      · exact isOrdinary_escaped c
    rw [isOrdinary_append, hwritten, ih, Bool.and_self]

theorem isOrdinary_doubleQuoted (column : Nat) (text : List Char) :
    Source.isOrdinary (doubleQuoted column text) = true := by
  have hescaped : Source.isOrdinary (text.flatMap escaped) = true := by
    induction text with
    | nil => rfl
    | cons c rest ih =>
      rw [List.flatMap_cons, isOrdinary_append, isOrdinary_escaped, ih, Bool.and_self]
  rw [doubleQuoted, List.cons_append, isOrdinary_cons, isOrdinary_append]
  split
  · rw [hescaped]
    decide
  · rw [isOrdinary_writeDoubleQuoted]
    decide

/-- What is written for a text of one line needs no attention when it is read. -/
theorem isOrdinary_writeScalar {text : String} (hline : IsOneLine text) (column : Nat) :
    Source.isOrdinary (writeScalar column text) = true := by
  unfold writeScalar
  dsimp only
  split
  · next hstyle =>
    have hplain := ((of_styleOf text).1 hstyle).2
    simp only [canBePlain, Bool.and_eq_true, List.all_eq_true] at hplain
    exact isOrdinary_writePlain (fun c hmem => (hplain.2 c hmem).1) column false
  · next hstyle =>
    have hsingle := (of_styleOf text).2.1 hstyle
    simp only [canBeSingleQuoted, Bool.and_eq_true, List.all_eq_true] at hsingle
    rw [singleQuoted, List.cons_append, isOrdinary_cons, isOrdinary_append,
      isOrdinary_writeSingleQuoted hsingle.1.1]
    decide
  · exact isOrdinary_doubleQuoted column text.toList
  · next hstyle => exact absurd hstyle (styleOf_ne_literal hline)

end ClassLang.Yaml
