import ClassLang.Parser.Indexed
import ClassLang.Proofs.Spelling
import ClassLang.Script.Statement
import Mathlib.Data.Nat.Digits.Defs

/-!
# Integer literals

An integer literal is one sign at most and then digits, as many as there may be.  Only the
value counts against the limits of the word, so zeros in front change nothing.  What is printed
for an integer is such a literal of the same value.
-/

namespace ClassLang

namespace Text

/-! ## What a literal writes -/

/-- The number that decimal digits write, each with the weight of its place. -/
def decimalValue (digits : List Char) : Nat :=
  Nat.ofDigits 10 (digits.reverse.map fun c => c.toNat - '0'.toNat)

/-- ASCII digits, at least one of them. -/
structure IsDigits (digits : List Char) : Prop where
  nonempty : digits ≠ []
  digit : ∀ c ∈ digits, c.isDigit = true

/-- The text is digits, or one sign and digits, and has the given value. -/
inductive Writes : List Char → Int → Prop
  | unsigned {digits : List Char} : IsDigits digits → Writes digits (decimalValue digits)
  | plus {digits : List Char} : IsDigits digits → Writes ('+' :: digits) (decimalValue digits)
  | minus {digits : List Char} : IsDigits digits → Writes ('-' :: digits) (-decimalValue digits)

/-- The integers that a signed word of 64 bits can hold. -/
def FitsWord (value : Int) : Prop :=
  -2 ^ 63 ≤ value ∧ value ≤ 2 ^ 63 - 1

theorem decimalValue_cons (c : Char) (digits : List Char) :
    decimalValue (c :: digits) =
      10 ^ digits.length * (c.toNat - '0'.toNat) + decimalValue digits := by
  simp only [decimalValue, List.reverse_cons, List.map_append, List.map_cons, List.map_nil,
    Nat.ofDigits_append, Nat.ofDigits_singleton, List.length_map, List.length_reverse]
  omega

/-- Going through the digits from the left, ten times the number so far and the next digit, gives
every digit the weight of its place. -/
theorem ofDigitChars_eq_decimalValue (digits : List Char) :
    Nat.ofDigitChars 10 digits 0 = decimalValue digits := by
  induction digits with
  | nil => rfl
  | cons c digits ih =>
    rw [Nat.ofDigitChars_cons, Nat.ofDigitChars_eq_ofDigitChars_zero, ih, decimalValue_cons,
      Nat.mul_zero, Nat.zero_add]

theorem isAsciiDigit_eq_isDigit : isAsciiDigit = Char.isDigit := rfl

theorem IsDigits.all_isAsciiDigit {digits : List Char} (hdigits : IsDigits digits) :
    digits.all isAsciiDigit = true := by
  rw [isAsciiDigit_eq_isDigit, List.all_eq_true]
  exact hdigits.digit

/-! ## Reading -/

/-- A number is read from digits alone, and it is their value. -/
theorem readNat?_eq_some_iff {digits : List Char} {value : Nat} :
    readNat? digits = some value ↔ IsDigits digits ∧ decimalValue digits = value := by
  rw [readNat?, ofDigitChars_eq_decimalValue]
  constructor
  · intro heq
    split at heq
    · cases heq
    · next hdigits =>
      simp only [Bool.or_eq_true, List.isEmpty_iff, Bool.not_eq_true', not_or,
        Bool.not_eq_false, isAsciiDigit_eq_isDigit, List.all_eq_true] at hdigits
      exact ⟨⟨hdigits.1, hdigits.2⟩, Option.some.inj heq⟩
  · rintro ⟨hdigits, rfl⟩
    rw [if_neg]
    simp [hdigits.nonempty, hdigits.all_isAsciiDigit]

/-- An integer is read exactly from the texts that write it. -/
theorem readInt?_eq_some_iff {text : List Char} {value : Int} :
    readInt? text = some value ↔ Writes text value := by
  constructor
  · intro heq
    unfold readInt? at heq
    split at heq
    -- Behind any sign the digits are read as a natural number, which then counts as an integer.
    all_goals
      obtain ⟨_, hvalue, rfl⟩ := Option.map_eq_some_iff.mp heq
      obtain ⟨n, hread, hcast⟩ := Option.bind_eq_some_iff.mp hvalue
      cases hcast
      obtain ⟨hdigits, rfl⟩ := readNat?_eq_some_iff.mp hread
    · exact .minus hdigits
    · exact .plus hdigits
    · exact .unsigned hdigits
  · intro hwrites
    cases hwrites with
    | unsigned hdigits =>
      rw [readInt?_of_digits hdigits.all_isAsciiDigit, readNat?_eq_some_iff.mpr ⟨hdigits, rfl⟩]
      rfl
    | plus hdigits | minus hdigits =>
      rw [readInt?, readNat?_eq_some_iff.mpr ⟨hdigits, rfl⟩]
      rfl

/-- A literal is read exactly if its value fits the word. -/
theorem readInt64?_eq_some_iff_writes {text : String} {value : Int} :
    readInt64? text = some value ↔ Writes text.toList value ∧ FitsWord value := by
  have hlimits : (decide (-(signedLimit : Int) ≤ value) && decide (value < signedLimit)) = true ↔
      FitsWord value := by
    rw [Bool.and_eq_true, decide_eq_true_eq, decide_eq_true_eq, FitsWord, signedLimit]
    omega
  rw [readInt64?, Option.filter_eq_some_iff, readInt?_eq_some_iff, hlimits]

example : readInt64? "-0009223372036854775808" = some (-9223372036854775808) := by decide

example : readInt64? "9223372036854775808" = none := by decide

theorem readInt64?_eq_none_iff {text : String} :
    readInt64? text = none ↔ ¬∃ value, Writes text.toList value ∧ FitsWord value := by
  simp only [Option.eq_none_iff_forall_ne_some, ne_eq, readInt64?_eq_some_iff_writes, not_exists]

/-! ## Printing -/

/-- Every integer is written by its decimal text. -/
theorem writes_decimal (value : Int) : Writes (decimal value).toList value := by
  rw [← readInt?_eq_some_iff]
  cases value with
  | ofNat n =>
    have htext : (decimal n).toList = Nat.toDigits 10 n := String.toList_ofList
    rw [Int.ofNat_eq_natCast, htext,
      readInt?_of_digits (all_isAsciiDigit_of_readNat? (readNat?_toDigits n)), readNat?_toDigits]
    rfl
  | negSucc n =>
    have htext : (decimal (.negSucc n)).toList = '-' :: Nat.toDigits 10 (n + 1) := by
      simp [decimal]
    rw [htext, readInt?, readNat?_toDigits]
    rfl

end Text

namespace Parser.Indexed

/-- An integer is a primary expression if it fits into a word, and an error otherwise. -/
theorem result_primary_int {tokens : Array Token} {place : Nat} {lexeme : String} {span : Span}
    (htoken : tokens[place]? = some ⟨.int, lexeme, span⟩) :
    Found.result (primary tokens place) =
      match Text.readInt64? lexeme with
      | some value => .ok (.int value, place + 1)
      | none => .error (.integerOutOfRange lexeme span) := by
  obtain ⟨hplace, heq⟩ := Array.getElem?_eq_some_iff.mp htoken
  have hkind : tokens[place].kind ∈ primaryKinds := by
    rw [heq]
    exact List.mem_cons_self
  have hexpect : expect tokens "expression" primaryKinds place =
      .ok ⟨⟨.int, lexeme, span⟩, place + 1, within_succ hplace⟩ := by
    rw [expect, dif_pos hplace, if_pos hkind]
    simp only [heq]
  rw [primary, hexpect]
  change Found.result (match Text.readInt64? lexeme with
    | some value => .ok ⟨Exp.int value, place + 1, within_succ hplace⟩
    | none => .error (.integerOutOfRange lexeme span)) = _
  cases Text.readInt64? lexeme with
  | none => rfl
  | some value => rfl

end Parser.Indexed

open Parser.Indexed

/-- An integer token is read as the value that its lexeme writes, whatever its length, if a word
of 64 bits holds this value.  Every other lexeme is refused, and the fault shows it.  What is
printed for an integer, as source or as script, is read as the same integer. -/
theorem integer_literals_exact (before after : Array Token) (span : Span) :
    (∀ (lexeme : String) (value : Int),
      Found.result (primary (before.push ⟨.int, lexeme, span⟩ ++ after) before.size) =
          .ok (.int value, before.size + 1) ↔
        Text.Writes lexeme.toList value ∧ Text.FitsWord value) ∧
      (∀ lexeme : String,
        Found.result (primary (before.push ⟨.int, lexeme, span⟩ ++ after) before.size) =
            .error (.integerOutOfRange lexeme span) ↔
          ¬∃ value, Text.Writes lexeme.toList value ∧ Text.FitsWord value) ∧
      ∀ value : Int,
        (Exp.int value).script = .ok (Exp.int value).source ∧
          (Found.result (primary (before.push ⟨.int, (Exp.int value).source, span⟩ ++ after)
              before.size) = .ok (.int value, before.size + 1) ↔ Text.FitsWord value) := by
  have hresult : ∀ lexeme : String,
      Found.result (primary (before.push ⟨.int, lexeme, span⟩ ++ after) before.size) =
        match Text.readInt64? lexeme with
        | some value => .ok (.int value, before.size + 1)
        | none => .error (.integerOutOfRange lexeme span) := by
    intro lexeme
    apply result_primary_int
    rw [Array.getElem?_append_left (by simp), Array.getElem?_push_size]
  have haccepted : ∀ (lexeme : String) (value : Int),
      Found.result (primary (before.push ⟨.int, lexeme, span⟩ ++ after) before.size) =
          .ok (.int value, before.size + 1) ↔
        Text.Writes lexeme.toList value ∧ Text.FitsWord value := by
    intro lexeme value
    rw [hresult, ← Text.readInt64?_eq_some_iff_writes]
    cases Text.readInt64? lexeme <;> simp
  refine ⟨haccepted, ?_, ?_⟩
  · intro lexeme
    rw [hresult, ← Text.readInt64?_eq_none_iff]
    cases Text.readInt64? lexeme <;> simp
  · intro value
    refine ⟨rfl, ?_⟩
    rw [haccepted]
    exact and_iff_right (Text.writes_decimal value)

end ClassLang
