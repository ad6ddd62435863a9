import ClassLang.Proofs.Grammar
import ClassLang.Proofs.Scanning
import ClassLang.Text.Layout

/-!
# Texts that spell lexemes

A text is put together from pieces, and it scans like its pieces one after the
other unless two of them run into one word.  The scanner looks at one character
behind a word, so it is enough to know how a piece starts.
-/

namespace ClassLang

/-- What follows does not go on with a word. -/
def Boundary (rest : List Char) : Prop :=
  ∀ c ∈ rest.head?, Lexeme.continuesName c = false

theorem boundary_nil : Boundary [] := by
  intro c hc
  cases hc

/-- A word ends before a character that continues no name. -/
theorem boundary_cons {c : Char} (hc : Lexeme.continuesName c = false) (rest : List Char) :
    Boundary (c :: rest) := by
  intro first hfirst
  cases hfirst
  exact hc

/-- The text starts with a character that does not go on with a word. -/
def StartsApart (text : String) : Prop :=
  ∃ c chars, text.toList = c :: chars ∧ Lexeme.continuesName c = false

theorem StartsApart.boundary {text : String} (hapart : StartsApart text) (rest : List Char) :
    Boundary (text.toList ++ rest) := by
  obtain ⟨c, chars, heq, hc⟩ := hapart
  rw [heq]
  intro first hfirst
  cases hfirst
  exact hc

theorem StartsApart.append {text : String} (hapart : StartsApart text) (more : String) :
    StartsApart (text ++ more) := by
  obtain ⟨c, chars, heq, hc⟩ := hapart
  refine ⟨c, chars ++ more.toList, ?_, hc⟩
  rw [String.toList_append, heq]
  rfl

/-- The text scans to the lexemes in front of everything that does not go on
with a word. -/
def Spells (text : String) (lexemes : List Lexeme) : Prop :=
  ∀ rest, Boundary rest → Scans (text.toList ++ rest) lexemes rest

/-- The text does not end in a word: it scans to the lexemes in front of
everything. -/
def SpellsClosed (text : String) (lexemes : List Lexeme) : Prop :=
  ∀ rest, Scans (text.toList ++ rest) lexemes rest

variable {left right : String} {first last : List Lexeme}

theorem SpellsClosed.spells (hleft : SpellsClosed left first) : Spells left first :=
  fun rest _ => hleft rest

/-- Texts that end their last word can be put side by side. -/
theorem SpellsClosed.append (hleft : SpellsClosed left first) (hright : SpellsClosed right last) :
    SpellsClosed (left ++ right) (first ++ last) := by
  intro rest
  rw [String.toList_append, List.append_assoc]
  exact (hleft _).append (hright rest)

theorem SpellsClosed.append_spells (hleft : SpellsClosed left first)
    (hright : Spells right last) : Spells (left ++ right) (first ++ last) := by
  intro rest hrest
  rw [String.toList_append, List.append_assoc]
  exact (hleft _).append (hright rest hrest)

/-- A text that starts apart ends the word before it. -/
theorem Spells.append_closed (hleft : Spells left first) (hright : SpellsClosed right last)
    (hapart : StartsApart right) : SpellsClosed (left ++ right) (first ++ last) := by
  intro rest
  rw [String.toList_append, List.append_assoc]
  exact (hleft _ (hapart.boundary rest)).append (hright rest)

/-- A text that spells lexemes is scanned as them. -/
theorem Spells.scans (hleft : Spells left first) : Scans left.toList first [] := by
  have hscans := hleft [] boundary_nil
  rwa [List.append_nil] at hscans

/-! ## Single lexemes -/

/-- A run of characters of one sort ends where that sort ends. -/
theorem takeWhile_dropWhile_run {continues : Char → Bool} {run rest : List Char}
    (hrun : ∀ c ∈ run, continues c = true) (hrest : ∀ c ∈ rest.head?, continues c = false) :
    (run ++ rest).takeWhile continues = run ∧ (run ++ rest).dropWhile continues = rest := by
  rw [List.takeWhile_append_of_pos hrun, List.dropWhile_append_of_pos hrun]
  cases rest with
  | nil => exact ⟨List.append_nil run, rfl⟩
  | cons c rest =>
    have hc : ¬continues c = true := by rw [hrest c rfl]; exact Bool.false_ne_true
    rw [List.takeWhile_cons_of_neg hc, List.append_nil, List.dropWhile_cons_of_neg hc]
    exact ⟨rfl, rfl⟩

/-- A word is read up to its boundary. -/
theorem Lexeme.next?_word {c : Char} {chars rest : List Char} (hstart : startsName c = true)
    (hchars : chars.all continuesName = true) (hrest : Boundary rest) :
    next? (c :: chars ++ rest) = some (⟨kindOfWord (c :: chars), c :: chars⟩, rest) := by
  have hcontinues := continuesName_of_startsName hstart
  have hall : ∀ d ∈ c :: chars, continuesName d = true :=
    List.forall_mem_cons.mpr ⟨hcontinues, List.all_eq_true.mp hchars⟩
  obtain ⟨htake, hdrop⟩ := takeWhile_dropWhile_run hall hrest
  have hhead : ((c :: chars ++ rest).head?.map startsName).getD false = true := by
    simp [hstart]
  have hoperator : operator? (c :: chars ++ rest) = none :=
    operator?_eq_none_of_continuesName hcontinues
  rw [next?, hoperator, word?, if_pos hhead, htake, hdrop]
  rfl

/-- A run of digits is read up to the first other character. -/
theorem Lexeme.next?_digits {digits rest : List Char} (hne : digits ≠ [])
    (hdigits : ∀ c ∈ digits, Text.isAsciiDigit c = true)
    (hrest : ∀ c ∈ rest.head?, Text.isAsciiDigit c = false) :
    next? (digits ++ rest) = some (⟨.int, digits⟩, rest) := by
  obtain ⟨htake, hdrop⟩ := takeWhile_dropWhile_run hdigits hrest
  obtain ⟨c, chars, rfl⟩ := List.exists_cons_of_ne_nil hne
  have hdigit : Text.isAsciiDigit c = true := hdigits c List.mem_cons_self
  have hoperator : operator? (c :: chars ++ rest) = none :=
    operator?_eq_none_of_continuesName (continuesName_of_isAsciiDigit hdigit)
  have hword : word? (c :: chars ++ rest) = none := by
    simp [word?, startsName_eq_false_of_isAsciiDigit hdigit]
  have hhead : ((c :: chars ++ rest).head?.map Text.isAsciiDigit).getD false = true := by
    simp [hdigit]
  rw [next?, hoperator, hword, integer?, if_pos hhead, htake, hdrop]
  rfl

/-- A word, be it a name or a keyword. -/
theorem spells_word {text : String} {c : Char} {chars : List Char} (heq : text.toList = c :: chars)
    (hstart : Lexeme.startsName c = true) (hchars : chars.all Lexeme.continuesName = true) :
    Spells text [⟨Lexeme.kindOfWord text.toList, text.toList⟩] := by
  intro rest hrest
  rw [heq]
  exact .lexeme (Lexeme.next?_word hstart hchars hrest) (.done rest)

/-- A name is spelled by itself. -/
theorem exists_spells_name {text : String} (hname : Lexeme.isName text = true) :
    ∃ name : Lexeme, Spells text [name] ∧ name.kind = .ident ∧ name.text = text := by
  unfold Lexeme.isName at hname
  split at hname
  · cases hname
  · next c chars heq =>
    simp only [Bool.and_eq_true, Option.isNone_iff_eq_none] at hname
    obtain ⟨⟨hstart, hchars⟩, hkeyword⟩ := hname
    have hkind : Lexeme.kindOfWord text.toList = .ident := by
      rw [heq, Lexeme.kindOfWord, hkeyword]
      rfl
    exact ⟨_, spells_word heq hstart hchars, hkind, String.ofList_toList⟩

theorem all_isAsciiDigit_toDigits (value : Nat) :
    ∀ c ∈ Nat.toDigits 10 value, Text.isAsciiDigit c = true := by
  intro c hc
  have hdigit := Nat.isDigit_of_mem_toDigits (by decide) (by decide) hc
  simpa [Char.isDigit, Text.isAsciiDigit, Char.le_def] using hdigit

/-- A number is read from its digits. -/
theorem readNat?_toDigits (value : Nat) :
    Text.readNat? (Nat.toDigits 10 value) = some value := by
  have hall : (Nat.toDigits 10 value).all Text.isAsciiDigit = true :=
    List.all_eq_true.mpr (all_isAsciiDigit_toDigits value)
  have hempty : (Nat.toDigits 10 value).isEmpty = false :=
    List.isEmpty_eq_false_iff.mpr Nat.toDigits_ne_nil
  rw [Text.readNat?, hall, hempty, Nat.ofDigitChars_toDigits (by decide) (by decide)]
  rfl

theorem spells_decimal (value : Nat) :
    Spells (Text.decimal value) [⟨.int, Nat.toDigits 10 value⟩] := by
  intro rest hrest
  have htext : Text.decimal value = String.ofList (Nat.toDigits 10 value) := rfl
  rw [htext, String.toList_ofList]
  have hend : ∀ c ∈ rest.head?, Text.isAsciiDigit c = false := by
    intro c hc
    have hfalse := hrest c hc
    rw [Lexeme.continuesName, Bool.or_eq_false_iff] at hfalse
    exact hfalse.2
  exact .lexeme (Lexeme.next?_digits Nat.toDigits_ne_nil (all_isAsciiDigit_toDigits value) hend)
    (.done rest)

/-! ## Pieces with blanks between them -/

/-- The texts spell the lexemes one after the other. -/
inductive SpellsEach : List String → List Lexeme → Prop
  | nil : SpellsEach [] []
  | cons {text : String} {texts : List String} {lexemes others : List Lexeme} :
      Spells text lexemes → SpellsEach texts others →
      SpellsEach (text :: texts) (lexemes ++ others)

theorem SpellsEach.one {text : String} {lexemes : List Lexeme} (htext : Spells text lexemes) :
    SpellsEach [text] lexemes := by
  have hcons := SpellsEach.cons htext .nil
  rwa [List.append_nil] at hcons

theorem SpellsEach.append {texts more : List String} {lexemes others : List Lexeme}
    (htexts : SpellsEach texts lexemes) (hmore : SpellsEach more others) :
    SpellsEach (texts ++ more) (lexemes ++ others) := by
  induction htexts with
  | nil => exact hmore
  | cons htext _ ih =>
    rw [List.append_assoc]
    exact .cons htext ih

/-- Texts with a blank between each two. -/
theorem SpellsEach.intercalate {texts : List String} {lexemes : List Lexeme}
    (htexts : SpellsEach texts lexemes) {blank : String} (hblank : SpellsClosed blank [])
    (hapart : StartsApart blank) : Spells (blank.intercalate texts) lexemes := by
  induction htexts with
  | nil =>
    rw [String.intercalate_nil]
    exact fun rest _ => .done rest
  | @cons text texts lexemes others htext htexts ih =>
    cases htexts with
    | nil =>
      rw [String.intercalate_singleton, List.append_nil]
      exact htext
    | cons hnext hmore =>
      rw [String.intercalate_cons_cons]
      have hspells := (htext.append_closed hblank hapart).append_spells ih
      rwa [List.append_nil] at hspells

/-- Texts in lines of their own. -/
theorem SpellsEach.join {texts : List String} {lexemes : List Lexeme}
    (htexts : SpellsEach texts lexemes) {line : String → String}
    (hline : ∀ text lexemes, Spells text lexemes → SpellsClosed (line text) lexemes) :
    SpellsClosed (String.join (texts.map line)) lexemes := by
  induction htexts with
  | nil => exact fun rest => .done rest
  | cons htext _ ih =>
    rw [List.map_cons, String.join_cons]
    exact (hline _ _ htext).append ih

theorem spells_newline : SpellsClosed "\n" [] :=
  fun rest => .blank rfl (.done rest)

/-- The end of the line ends a word. -/
theorem Spells.line {text : String} {lexemes : List Lexeme} (htext : Spells text lexemes) :
    SpellsClosed (text ++ "\n") lexemes := by
  have hline := htext.append_closed spells_newline ⟨'\n', [], rfl, rfl⟩
  rwa [List.append_nil] at hline

end ClassLang
