import ClassLang.Proofs.Tiling

/-!
# Texts that have tokens

Which texts can be tokenized can be said without a scanner: it takes the right
characters, an equals sign behind every exclamation mark, and an even number of
characters in every run of `&` and of `|`.  Taking a lexeme off the front does
not change whether this holds of a text, and a text of which it holds is either
empty or starts with a blank or a lexeme.

In every other text the scanner stops at one character.  It got there without
looking further than that character, and it stops there because of the character
itself and the next one.
-/

namespace ClassLang

/-! ## Legible texts -/

/-- The characters that tokens and the gaps between them are made of. -/
def isLegible (c : Char) : Bool :=
  Text.isBlank c || Text.isLetter c || c == '_' || Text.isAsciiDigit c ||
    c ∈ Lexeme.operatorChars

/-- Every exclamation mark has an equals sign behind it. -/
def MarksComplete (text : List Char) : Prop :=
  ∀ i, text[i]? = some '!' → text[i + 1]? = some '='

/-- Somewhere in the text there are `count` copies of the character, with another
character or nothing on either side. -/
def HasRun (c : Char) (text : List Char) (count : Nat) : Prop :=
  ∃ before after, text = before ++ (List.replicate count c ++ after) ∧
    before.getLast? ≠ some c ∧ after.head? ≠ some c

/-- Every run of the character can be cut into pairs. -/
def RunsEven (c : Char) (text : List Char) : Prop :=
  ∀ count, HasRun c text count → 2 ∣ count

structure Legible (text : List Char) : Prop where
  chars : ∀ c ∈ text, isLegible c = true
  marks : MarksComplete text
  ands : RunsEven '&' text
  ors : RunsEven '|' text

/-- Exclamation marks have to be looked at one by one, each with the character after
it. -/
theorem marksComplete_cons {c : Char} {text : List Char} :
    MarksComplete (c :: text) ↔ (c = '!' → text.head? = some '=') ∧ MarksComplete text := by
  rw [List.head?_eq_getElem?]
  constructor
  · intro hmarks
    exact ⟨fun hc => hmarks 0 (congrArg some hc), fun i hi => hmarks (i + 1) hi⟩
  · rintro ⟨hfirst, hothers⟩ i hi
    cases i with
    | zero => exact hfirst (Option.some.inj hi)
    | succ i => exact hothers i hi

section Runs

variable {c d : Char} {text : List Char} {count : Nat}

theorem HasRun.cons (hrun : HasRun c text count) (hne : d ≠ c) : HasRun c (d :: text) count := by
  obtain ⟨before, after, rfl, hbefore, hafter⟩ := hrun
  refine ⟨d :: before, after, rfl, ?_, hafter⟩
  cases before with
  | nil => simpa using hne
  | cons e before => simpa using hbefore

theorem HasRun.of_cons (hrun : HasRun c (d :: text) count) (hne : d ≠ c) :
    count = 0 ∨ HasRun c text count := by
  obtain ⟨before, after, heq, hbefore, hafter⟩ := hrun
  cases before with
  | nil =>
    cases count with
    | zero => exact .inl rfl
    | succ count =>
      rw [List.nil_append, List.replicate_succ, List.cons_append] at heq
      exact absurd (List.cons.inj heq).1 hne
  | cons e before =>
    refine .inr ⟨before, after, (List.cons.inj heq).2, ?_, hafter⟩
    intro hlast
    rw [List.getLast?_cons, hlast] at hbefore
    exact hbefore rfl

/-- Another character at the front makes no difference to the runs. -/
theorem runsEven_cons_of_ne (hne : d ≠ c) : RunsEven c (d :: text) ↔ RunsEven c text := by
  constructor
  · exact fun heven count hrun => heven count (hrun.cons hne)
  · intro heven count hrun
    rcases hrun.of_cons hne with rfl | hothers
    · exact Nat.dvd_zero 2
    · exact heven count hothers

theorem hasRun_replicate_append (count : Nat) {after : List Char}
    (hafter : after.head? ≠ some c) : HasRun c (List.replicate count c ++ after) count :=
  ⟨[], after, rfl, by simp, hafter⟩

/-- Two more of the same character make a run longer by two, or leave it alone if it is
elsewhere. -/
theorem HasRun.cons_cons (hrun : HasRun c text count) :
    HasRun c (c :: c :: text) count ∨ HasRun c (c :: c :: text) (count + 2) := by
  obtain ⟨before, after, rfl, hbefore, hafter⟩ := hrun
  cases before with
  | nil => exact .inr (hasRun_replicate_append (count + 2) hafter)
  | cons e before =>
    refine .inl ⟨c :: c :: e :: before, after, rfl, ?_, hafter⟩
    simpa using hbefore

theorem HasRun.of_cons_cons (hrun : HasRun c (c :: c :: text) count) :
    HasRun c text count ∨ ∃ fewer, count = fewer + 2 ∧ HasRun c text fewer := by
  obtain ⟨before, after, heq, hbefore, hafter⟩ := hrun
  rcases before with _ | ⟨e, _ | ⟨f, before⟩⟩
  · -- The run is the first one, and it holds both characters.
    rw [List.nil_append] at heq
    rcases count with _ | _ | fewer
    · rw [List.replicate_zero, List.nil_append] at heq
      exact absurd (heq ▸ rfl) hafter
    · rw [List.replicate_one, List.singleton_append] at heq
      exact absurd ((List.cons.inj heq).2 ▸ rfl) hafter
    · rw [List.replicate_succ, List.replicate_succ] at heq
      rw [(List.cons.inj (List.cons.inj heq).2).2]
      exact .inr ⟨fewer, rfl, hasRun_replicate_append fewer hafter⟩
  · rw [← (List.cons.inj heq).1] at hbefore
    exact absurd rfl hbefore
  · refine .inl ⟨before, after, (List.cons.inj (List.cons.inj heq).2).2, ?_, hafter⟩
    intro hlast
    rw [List.getLast?_cons, List.getLast?_cons, hlast] at hbefore
    exact hbefore rfl

/-- A pair at the front leaves all runs as even or odd as they are. -/
theorem runsEven_cons_cons : RunsEven c (c :: c :: text) ↔ RunsEven c text := by
  constructor
  · intro heven count hrun
    rcases hrun.cons_cons with hsame | hlonger
    · exact heven count hsame
    · exact (Nat.dvd_add_left (Nat.dvd_refl 2)).mp (heven _ hlonger)
  · intro heven count hrun
    rcases hrun.of_cons_cons with hsame | ⟨fewer, rfl, hshorter⟩
    · exact heven count hsame
    · exact Nat.dvd_add (heven fewer hshorter) (Nat.dvd_refl 2)

/-- A run that starts the text has a second character. -/
theorem RunsEven.head?_eq (heven : RunsEven c (c :: text)) : text.head? = some c := by
  apply Decidable.byContradiction
  intro hhead
  have hone : 2 ∣ 1 := heven 1 (hasRun_replicate_append 1 hhead)
  exact absurd hone (by decide)

end Runs

section Front

variable {c : Char} {text : List Char}

/-- What makes a text legible: no other characters, no mark without its sign, and all runs
even. -/
theorem legible_iff :
    Legible text ↔ (∀ c ∈ text, isLegible c = true) ∧ MarksComplete text ∧
      RunsEven '&' text ∧ RunsEven '|' text := by
  constructor
  · rintro ⟨hchars, hmarks, hands, hors⟩
    exact ⟨hchars, hmarks, hands, hors⟩
  · rintro ⟨hchars, hmarks, hands, hors⟩
    exact ⟨hchars, hmarks, hands, hors⟩

theorem legible_nil : Legible [] := by
  refine ⟨by simp, by simp [MarksComplete], ?_, ?_⟩
  all_goals
    rintro count ⟨before, after, heq, -⟩
    rw [List.nil_eq_append_iff, List.append_eq_nil_iff, List.replicate_eq_nil_iff] at heq
    exact heq.2.1 ▸ Nat.dvd_zero 2

/-- The characters that ask nothing of what stands behind them. -/
def isPlain (c : Char) : Bool :=
  isLegible c && c ∉ ['!', '&', '|']

theorem legible_cons (hplain : isPlain c = true) : Legible (c :: text) ↔ Legible text := by
  simp only [isPlain, Bool.and_eq_true, decide_eq_true_eq, List.mem_cons, List.not_mem_nil,
    or_false, not_or] at hplain
  obtain ⟨hlegible, hmark, hand, hor⟩ := hplain
  rw [legible_iff, legible_iff, List.forall_mem_cons, marksComplete_cons,
    runsEven_cons_of_ne hand, runsEven_cons_of_ne hor]
  simp [hlegible, hmark]

/-- Plain characters in front make no difference. -/
theorem legible_append {chars : List Char} (hplain : ∀ c ∈ chars, isPlain c = true) :
    Legible (chars ++ text) ↔ Legible text := by
  induction chars with
  | nil => exact Iff.rfl
  | cons c chars ih =>
    rw [List.forall_mem_cons] at hplain
    exact (legible_cons hplain.1).trans (ih hplain.2)

theorem legible_mark : Legible ('!' :: '=' :: text) ↔ Legible text := by
  have hsign : Legible ('=' :: text) ↔ Legible text := legible_cons rfl
  have hmark : isLegible '!' = true := rfl
  have hands : RunsEven '&' ('!' :: '=' :: text) ↔ _ := runsEven_cons_of_ne (by decide)
  have hors : RunsEven '|' ('!' :: '=' :: text) ↔ _ := runsEven_cons_of_ne (by decide)
  rw [← hsign, legible_iff, legible_iff, List.forall_mem_cons, marksComplete_cons, hands, hors]
  simp [hmark]

/-- Two ampersands or two bars in front make no difference. -/
theorem legible_pair (hc : c = '&' ∨ c = '|') : Legible (c :: c :: text) ↔ Legible text := by
  have hand : isLegible '&' = true := rfl
  have hor : isLegible '|' = true := rfl
  rcases hc with rfl | rfl
  · have hothers : RunsEven '|' ('&' :: '&' :: text) ↔ RunsEven '|' text := by
      rw [runsEven_cons_of_ne (by decide), runsEven_cons_of_ne (by decide)]
    rw [legible_iff, legible_iff, hothers, runsEven_cons_cons]
    simp [marksComplete_cons, hand]
  · have hothers : RunsEven '&' ('|' :: '|' :: text) ↔ RunsEven '&' text := by
      rw [runsEven_cons_of_ne (by decide), runsEven_cons_of_ne (by decide)]
    rw [legible_iff, legible_iff, hothers, runsEven_cons_cons]
    simp [marksComplete_cons, hor]

end Front

/-! ## Lexemes in legible texts -/

theorem isPlain_of_isBlank {c : Char} (hblank : Text.isBlank c = true) : isPlain c = true := by
  have hoperator : c ∉ Lexeme.operatorChars := by
    intro hmem
    rw [Lexeme.isBlank_eq_false_of_mem_operatorChars c hmem] at hblank
    cases hblank
  simp only [Lexeme.operatorChars, List.mem_cons, not_or] at hoperator
  simp [isPlain, isLegible, hblank, hoperator]

theorem isPlain_of_continuesName {c : Char} (hname : Lexeme.continuesName c = true) :
    isPlain c = true := by
  have hoperator := Lexeme.not_mem_operatorChars_of_continuesName hname
  simp only [Lexeme.operatorChars, List.mem_cons, not_or] at hoperator
  simp only [Lexeme.continuesName, Lexeme.startsName, Bool.or_eq_true] at hname
  rcases hname with (hunderscore | hletter) | hdigit
  · simp [isPlain, isLegible, hunderscore, hoperator]
  · simp [isPlain, isLegible, hletter, hoperator]
  · simp [isPlain, isLegible, hdigit, hoperator]

/-- A lexeme at the front makes no difference. -/
theorem legible_lexeme {chars : List Char} {kind : Kind}
    (hkind : Lexeme.kindOf? chars = some kind) (rest : List Char) :
    Legible (chars ++ rest) ↔ Legible rest := by
  rcases Lexeme.kindOf?_cases hkind with ⟨c, others, rfl, hstart, hothers, -⟩ |
    ⟨-, hdigits, -⟩ | hmem
  · apply legible_append
    have hall : ∀ d ∈ c :: others, Lexeme.continuesName d = true :=
      List.forall_mem_cons.mpr
        ⟨Lexeme.continuesName_of_startsName hstart, List.all_eq_true.mp hothers⟩
    exact fun d hd => isPlain_of_continuesName (hall d hd)
  · apply legible_append
    intro c hc
    exact isPlain_of_continuesName (Lexeme.continuesName_of_isAsciiDigit (hdigits c hc))
  · -- Three operators hold characters that stand in pairs, and the others do not.
    have hall : Lexeme.operators.all (fun entry => entry.1.all isPlain ||
        entry.1 ∈ [['!', '='], ['&', '&'], ['|', '|']]) = true := by decide
    have hentry := List.all_eq_true.mp hall _ hmem
    rw [Bool.or_eq_true, List.all_eq_true] at hentry
    rcases hentry with hplain | hpaired
    · exact legible_append hplain
    · simp only [List.mem_cons, List.not_mem_nil, or_false, decide_eq_true_eq] at hpaired
      rcases hpaired with rfl | rfl | rfl
      · exact legible_mark
      · exact legible_pair (.inl rfl)
      · exact legible_pair (.inr rfl)

/-- What was scanned makes no difference, so a text is legible if the rest of it is. -/
theorem Scans.legible_iff {text rest : List Char} {lexemes : List Lexeme}
    (hscans : Scans text lexemes rest) : Legible text ↔ Legible rest := by
  induction hscans with
  | done => exact Iff.rfl
  | blank hblank _ ih => exact (legible_cons (isPlain_of_isBlank hblank)).trans ih
  | lexeme hnext _ ih =>
    obtain ⟨rfl, hkind, -⟩ := Lexeme.next?_eq_some_iff.mp hnext
    exact (legible_lexeme hkind _).trans ih

/-! ## Where the scanner stops -/

/-- Neither a blank nor a lexeme stands at the front. -/
def Stops (text : List Char) : Prop :=
  ∀ c ∈ text.head?, Text.isBlank c = false ∧ Lexeme.next? text = none

/-- Every text can be scanned up to its end or to where the scanner stops. -/
theorem exists_scans_stops (text : List Char) :
    ∃ lexemes rest, Scans text lexemes rest ∧ Stops rest := by
  induction hlength : text.length using Nat.strongRecOn generalizing text with
  | ind length ih =>
    cases text with
    | nil => exact ⟨[], [], .done [], fun c hc => absurd hc (by simp)⟩
    | cons c text =>
      cases hblank : Text.isBlank c with
      | true =>
        obtain ⟨lexemes, rest, hscans, hstops⟩ :=
          ih text.length (hlength ▸ Nat.lt_succ_self _) text rfl
        exact ⟨lexemes, rest, .blank hblank hscans, hstops⟩
      | false =>
        cases hnext : Lexeme.next? (c :: text) with
        | none =>
          refine ⟨[], c :: text, .done _, ?_⟩
          rintro d hd
          cases hd
          exact ⟨hblank, hnext⟩
        | some found =>
          obtain ⟨lexeme, after⟩ := found
          have hshorter := Lexeme.length_of_next? hnext
          obtain ⟨lexemes, rest, hscans, hstops⟩ := ih after.length (hlength ▸ hshorter) after rfl
          exact ⟨lexeme :: lexemes, rest, .lexeme hnext hscans, hstops⟩

namespace Lexeme

theorem ofSymbol?_eq_none_iff {c : Char} :
    Kind.ofSymbol? c = none ↔ c ∉ operatorChars ∨ c ∈ ['=', '!', '&', '|'] := by
  unfold Kind.ofSymbol?
  split
  case h_12 =>
    simp only [operatorChars, List.mem_cons, List.not_mem_nil, or_false, true_iff]
    grind
  all_goals decide

/-- Whether an operator stands at the front depends on two characters. -/
theorem operator?_eq_none_iff {c : Char} {rest : List Char} :
    operator? (c :: rest) = none ↔ c ∉ operatorChars ∨ (c = '!' ∧ rest.head? ≠ some '=') ∨
      ((c = '&' ∨ c = '|') ∧ rest.head? ≠ some c) := by
  unfold operator?
  split
  case h_6 hequals hsign hmark hand hor heq =>
    cases heq
    rw [Option.map_eq_none_iff, ofSymbol?_eq_none_iff]
    grind [List.head?_eq_some_iff]
  all_goals simp_all [operatorChars]

/-- Nothing starts with a character that is in no name and in no operator. -/
theorem next?_eq_none_iff {c : Char} {rest : List Char} :
    next? (c :: rest) = none ↔ continuesName c = false ∧ operator? (c :: rest) = none := by
  have hword : word? (c :: rest) = none ↔ startsName c = false := by
    cases hstart : startsName c <;> simp [word?, hstart]
  have hinteger : integer? (c :: rest) = none ↔ Text.isAsciiDigit c = false := by
    cases hdigit : Text.isAsciiDigit c <;> simp [integer?, hdigit]
  simp only [next?, Option.orElse_eq_orElse, Option.orElse_eq_or, Option.or_eq_none_iff, hword,
    hinteger, continuesName, Bool.or_eq_false_iff]
  exact And.comm

end Lexeme

theorem Stops.of_head? {c : Char} {rest other : List Char} (hstops : Stops (c :: rest))
    (hhead : other.head? = rest.head?) : Stops (c :: other) := by
  intro d hd
  cases hd
  obtain ⟨hblank, hnone⟩ := hstops c rfl
  rw [Lexeme.next?_eq_none_iff, Lexeme.operator?_eq_none_iff] at hnone
  refine ⟨hblank, ?_⟩
  rwa [Lexeme.next?_eq_none_iff, Lexeme.operator?_eq_none_iff, hhead]

/-- A legible text never stops the scan before its end. -/
theorem Legible.eq_nil_of_stops {text : List Char} (hlegible : Legible text)
    (hstops : Stops text) : text = [] := by
  cases text with
  | nil => rfl
  | cons c rest =>
    obtain ⟨hblank, hnone⟩ := hstops c rfl
    obtain ⟨hname, hoperator⟩ := Lexeme.next?_eq_none_iff.mp hnone
    rcases Lexeme.operator?_eq_none_iff.mp hoperator with hnot | ⟨rfl, hhead⟩ | ⟨rfl | rfl, hhead⟩
    · have hchar := hlegible.chars c List.mem_cons_self
      simp only [Lexeme.continuesName, Lexeme.startsName, Bool.or_eq_false_iff] at hname
      simp [isLegible, hblank, hname, hnot] at hchar
    · exact absurd ((marksComplete_cons.mp hlegible.marks).1 rfl) hhead
    · exact absurd hlegible.ands.head?_eq hhead
    · exact absurd hlegible.ors.head?_eq hhead

/-- A text can be scanned up to its end exactly when it is legible. -/
theorem exists_scans_iff_legible {text : List Char} :
    (∃ lexemes, Scans text lexemes []) ↔ Legible text := by
  constructor
  · rintro ⟨lexemes, hscans⟩
    exact hscans.legible_iff.mpr legible_nil
  · intro hlegible
    obtain ⟨lexemes, rest, hscans, hstops⟩ := exists_scans_stops text
    have hnil := (hscans.legible_iff.mp hlegible).eq_nil_of_stops hstops
    exact ⟨lexemes, hnil ▸ hscans⟩

/-! ## The first fault -/

/-- What was scanned stays so when what comes after it is cut off, or replaced by
something that starts with the same character. -/
theorem Scans.exists_read {text rest : List Char} {lexemes : List Lexeme}
    (hscans : Scans text lexemes rest) :
    ∃ read, text = read ++ rest ∧ ∀ other, (∀ c ∈ other.head?, rest.head? = some c) →
      Scans (read ++ other) lexemes other := by
  induction hscans with
  | done => exact ⟨[], rfl, fun other _ => .done other⟩
  | @blank c text rest lexemes hblank _ ih =>
    obtain ⟨read, rfl, hread⟩ := ih
    exact ⟨c :: read, rfl, fun other hother => .blank hblank (hread other hother)⟩
  | @lexeme text after rest lexeme lexemes hnext _ ih =>
    obtain ⟨read, rfl, hread⟩ := ih
    obtain ⟨rfl, hkind, hends⟩ := Lexeme.next?_eq_some_iff.mp hnext
    refine ⟨lexeme.chars ++ read, (List.append_assoc _ _ _).symm, fun other hother => ?_⟩
    have hother' : Lexeme.Ends lexeme.kind (read ++ other) := by
      cases read with
      | nil => exact fun c hc => hends c (hother c hc)
      | cons c read => exact hends
    rw [List.append_assoc]
    exact .lexeme (Lexeme.next?_eq_some_iff.mpr ⟨rfl, hkind, hother'⟩) (hread other hother)

namespace Cursor

/-- Reading to the end fails where the scanner stops, and the cursor stays there. -/
theorem all_of_stops {text rest : List Char} {lexemes : List Lexeme} {c : Char}
    (hscans : Scans text lexemes (c :: rest)) (hstops : Stops (c :: rest)) (position : Position) :
    ∃ read, text = read ++ c :: rest ∧ all ⟨text, position⟩ =
      (.error (.unexpectedCharacter c (Span.single (position.advance read))),
        ⟨c :: rest, position.advance read⟩) := by
  generalize hstop : c :: rest = stop at hscans
  induction hscans generalizing position with
  | done =>
    subst hstop
    obtain ⟨hblank, hnone⟩ := hstops c rfl
    refine ⟨[], rfl, ?_⟩
    rw [all_eq, next_fault hblank hnone]
    rfl
  | @blank d text _ lexemes hblank _ ih =>
    obtain ⟨read, rfl, hall⟩ := ih (position.after d) hstop
    refine ⟨d :: read, rfl, ?_⟩
    rw [all_eq, next_blank hblank, ← all_eq, hall]
    rfl
  | @lexeme text after _ lexeme lexemes hnext _ ih =>
    obtain ⟨rfl, hkind, -⟩ := Lexeme.next?_eq_some_iff.mp hnext
    have hline := position.advance_of_not_mem (Lexeme.newline_not_mem hkind)
    have hend : (tokenAt position lexeme).kind ≠ .eof := (Lexeme.genuine_of_next? hnext).notEnd
    obtain ⟨read, rfl, hall⟩ := ih (position.advance lexeme.chars) hstop
    refine ⟨lexeme.chars ++ read, (List.append_assoc _ _ _).symm, ?_⟩
    rw [all_eq, next_lexeme hnext, ← hline, Position.advance_append]
    simp only [hend, if_false, hall]
    rfl

end Cursor

/-- Where the scan stops, the character there is reported. -/
theorem tokenize_of_stops {source : String} {read rest : List Char} {lexemes : List Lexeme}
    {c : Char} (hsource : source.toList = read ++ c :: rest)
    (hscans : Scans (read ++ c :: rest) lexemes (c :: rest)) (hstops : Stops (c :: rest))
    (file : String) :
    tokenize source file = .error
      (.unexpectedCharacter c (Span.single ((Position.start file).advance read))) := by
  obtain ⟨same, heq, hall⟩ := Cursor.all_of_stops hscans hstops (Position.start file)
  have hread := List.append_cancel_right heq
  subst hread
  rw [tokenize, Cursor.ofSource, hsource, hall]

/-- Texts that agree up to one character behind the given place. -/
theorem exists_append_of_take_eq {read rest other : List Char} {c : Char}
    (htake : other.take (read.length + 2) = (read ++ c :: rest).take (read.length + 2)) :
    ∃ more, other = read ++ c :: more ∧ more.head? = rest.head? := by
  have hfront : (read ++ c :: rest).take (read.length + 2) = read ++ c :: rest.take 1 := by
    rw [List.take_length_add_append]
    rfl
  rw [hfront] at htake
  refine ⟨rest.take 1 ++ other.drop (read.length + 2), ?_, ?_⟩
  · calc
      other = other.take (read.length + 2) ++ other.drop (read.length + 2) :=
        (List.take_append_drop _ other).symm
      _ = read ++ c :: (rest.take 1 ++ other.drop (read.length + 2)) := by
        rw [htake, List.append_assoc, List.cons_append]
  · cases rest with
    | cons d rest => rfl
    | nil =>
      have hlength := congrArg List.length htake
      simp only [List.length_take, List.length_append, List.take_nil, List.length_singleton]
        at hlength
      rw [List.drop_eq_nil_of_le (by omega)]
      rfl

/-- A source has tokens exactly when it is legible.  Otherwise there is a first
character at which reading fails: the text before it has tokens, and every text
that agrees with the source up to the character behind it, or up to the end of
both, fails in the same way. -/
theorem tokenize_succeeds_iff_legible (source file : String) :
    ((∃ tokens, tokenize source file = .ok tokens) ↔ Legible source.toList) ∧
      ∀ error, tokenize source file = .error error →
        ∃ (p : Nat) (c : Char), source.toList[p]? = some c ∧
          error = .unexpectedCharacter c
            (Span.single (Position.ofIndex file source.toList p)) ∧
          (∃ tokens, tokenize (String.ofList (source.toList.take p)) file = .ok tokens) ∧
          ∀ other : String, other.toList.take (p + 2) = source.toList.take (p + 2) →
            tokenize other file = .error error := by
  refine ⟨?_, ?_⟩
  · rw [← exists_scans_iff_legible]
    constructor
    · rintro ⟨tokens, htokens⟩
      obtain ⟨lexemes, hscans, -⟩ := scans_of_tokenize htokens
      exact ⟨lexemes, hscans⟩
    · rintro ⟨lexemes, hscans⟩
      obtain ⟨tokens, htokens, -⟩ := tokenize_of_scans hscans file
      exact ⟨tokens, htokens⟩
  · intro error herror
    obtain ⟨lexemes, rest, hscans, hstops⟩ := exists_scans_stops source.toList
    obtain ⟨read, hsource, hread⟩ := hscans.exists_read
    cases rest with
    | nil =>
      obtain ⟨tokens, htokens, -⟩ := tokenize_of_scans hscans file
      rw [herror] at htokens
      cases htokens
    | cons c rest =>
      rw [hsource] at hscans
      have hfault := tokenize_of_stops hsource hscans hstops file
      rw [herror] at hfault
      cases hfault
      rw [hsource]
      refine ⟨read.length, c, by simp, ?_, ?_, ?_⟩
      · rw [Position.advance_start_append file read (c :: rest)]
      · have hbefore := hread [] (by simp)
        rw [List.append_nil] at hbefore
        have htext : (String.ofList ((read ++ c :: rest).take read.length)).toList = read := by
          rw [String.toList_ofList, List.take_left]
        obtain ⟨tokens, htokens, -⟩ := tokenize_of_scans (htext.symm ▸ hbefore) file
        exact ⟨tokens, htokens⟩
      · intro other htake
        obtain ⟨more, hother, hhead⟩ := exists_append_of_take_eq htake
        have hmore : Scans (read ++ c :: more) lexemes (c :: more) := hread _ fun _ hc => hc
        exact tokenize_of_stops hother hmore (hstops.of_head? hhead) file

/-- Of three `&` in a row the last one is left over. -/
theorem tokenize_succeeds_iff_legible_odd_run :
    ¬Legible "a &&&\nb".toList ∧
      tokenize "a &&&\nb" "demo" =
        .error (.unexpectedCharacter '&' (Span.single ⟨"demo", 1, 5⟩)) ∧
      ∃ p tokens, "a &&&\nb".toList[p]? = some '&' ∧
        tokenize (String.ofList ("a &&&\nb".toList.take p)) "demo" = .ok tokens := by
  have hscans : Scans ("a &&".toList ++ '&' :: ['\n', 'b'])
      [⟨.ident, ['a']⟩, ⟨.andAnd, ['&', '&']⟩] ['&', '\n', 'b'] :=
    .lexeme rfl (.blank rfl (.lexeme rfl (.done _)))
  have hstops : Stops ['&', '\n', 'b'] := by
    rintro c hc
    cases hc
    exact ⟨rfl, rfl⟩
  have herror := tokenize_of_stops (rfl : "a &&&\nb".toList = _) hscans hstops "demo"
  obtain ⟨hlegible, hfault⟩ := tokenize_succeeds_iff_legible "a &&&\nb" "demo"
  obtain ⟨p, c, hc, hplace, ⟨tokens, htokens⟩, -⟩ := hfault _ herror
  obtain ⟨rfl, -⟩ := SourceError.unexpectedCharacter.inj hplace
  refine ⟨?_, herror, p, tokens, hc, htokens⟩
  intro htext
  obtain ⟨others, hothers⟩ := hlegible.mpr htext
  rw [herror] at hothers
  cases hothers

end ClassLang
