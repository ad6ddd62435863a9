import Mathlib.Data.String.Basic

/-!
# Texts in the order of their bytes

Texts are compared character by character.  Their bytes give the same order: of two
characters, the one with the smaller code also has the smaller bytes, and the bytes of
neither go on where those of the other end.
-/

namespace ClassLang.Text

/-- The first text comes before the second in the order of their bytes. -/
def BytesBefore (left right : String) : Prop :=
  left.toUTF8.data.toList < right.toUTF8.data.toList

/-- The numbers differ somewhere, and those of the first list are smaller there. -/
def IsBelow : List Nat → List Nat → Prop
  | left :: lefts, right :: rights => left < right ∨ left = right ∧ IsBelow lefts rights
  | _, _ => False

/-- The bytes of a character with the given code, as numbers. -/
def byteCodes (code : Nat) : List Nat :=
  if code ≤ 127 then [code]
  else if code ≤ 2047 then [code / 64 % 32 + 192, code % 64 + 128]
  else if code ≤ 65535 then
    [code / 4096 % 16 + 224, code / 64 % 64 + 128, code % 64 + 128]
  else [code / 262144 % 8 + 240, code / 4096 % 64 + 128, code / 64 % 64 + 128, code % 64 + 128]

/-- The bytes of a character, as numbers. -/
theorem utf8EncodeChar_eq (c : Char) :
    String.utf8EncodeChar c = (byteCodes c.toNat).map UInt8.ofNat := by
  change (if _ then _ else _) = _
  unfold byteCodes Char.toNat
  split_ifs <;> rfl

theorem lt_of_mem_byteCodes {code byte : Nat} (hbyte : byte ∈ byteCodes code) : byte < 256 := by
  unfold byteCodes at hbyte
  split_ifs at hbyte <;> simp only [List.mem_cons, List.not_mem_nil, or_false] at hbyte <;> omega

/-- Two numbers of four digits in base 64 first differ in one of the digits. -/
theorem digits_of_lt {left right : Nat} (hlt : left < right) :
    left / 262144 < right / 262144 ∨ left / 262144 = right / 262144 ∧
      (left / 4096 < right / 4096 ∨ left / 4096 = right / 4096 ∧
        (left / 64 < right / 64 ∨ left / 64 = right / 64 ∧ left % 64 < right % 64)) := by
  omega

/-- A smaller code has smaller bytes.  If it has fewer bytes, already the first of them
is smaller. -/
theorem isBelow_byteCodes {code other : Nat} (hlt : code < other) (hother : other < 1114112) :
    IsBelow (byteCodes code) (byteCodes other) := by
  unfold byteCodes
  rcases digits_of_lt hlt with hfirst | ⟨hfirst, hsecond | ⟨hsecond, hthird | hthird⟩⟩ <;>
    split_ifs <;> simp only [IsBelow, or_false, and_false] <;> omega

theorem map_append_lt_of_isBelow {lefts rights : List Nat} (hbelow : IsBelow lefts rights)
    (hbytes : ∀ byte ∈ rights, byte < 256) (first last : List UInt8) :
    lefts.map UInt8.ofNat ++ first < rights.map UInt8.ofNat ++ last := by
  induction lefts generalizing rights with
  | nil => exact hbelow.elim
  | cons left lefts ih =>
    cases rights with
    | nil => exact hbelow.elim
    | cons right rights =>
      rw [List.forall_mem_cons] at hbytes
      rw [List.map_cons, List.map_cons, List.cons_append, List.cons_append,
        List.cons_lt_cons_iff]
      apply hbelow.imp
      · intro hlt
        rw [UInt8.lt_iff_toNat_lt, UInt8.toNat_ofNat', UInt8.toNat_ofNat']
        omega
      · rintro ⟨rfl, hrest⟩
        exact ⟨rfl, ih hrest hbytes.2⟩

/-- The bytes of a smaller character come first, whatever follows. -/
theorem utf8EncodeChar_append_lt {left right : Char} (hlt : left < right)
    (first last : List UInt8) :
    String.utf8EncodeChar left ++ first < String.utf8EncodeChar right ++ last := by
  have hcodes : left.toNat < right.toNat := hlt
  have hvalid : right.toNat < 1114112 := by
    rcases right.valid with hlow | ⟨_, hhigh⟩
    · exact Nat.lt_trans hlow (by decide)
    · exact hhigh
  rw [utf8EncodeChar_eq, utf8EncodeChar_eq]
  apply map_append_lt_of_isBelow (isBelow_byteCodes hcodes hvalid)
  exact fun _ => lt_of_mem_byteCodes

theorem flatMap_utf8EncodeChar_lt {lefts rights : List Char} (hlt : lefts < rights) :
    lefts.flatMap String.utf8EncodeChar < rights.flatMap String.utf8EncodeChar := by
  induction hlt with
  | nil =>
    rw [List.flatMap_nil, List.flatMap_cons, utf8EncodeChar_eq, byteCodes]
    split_ifs <;> exact List.nil_lt_cons _ _
  | rel hchars =>
    rw [List.flatMap_cons, List.flatMap_cons]
    exact utf8EncodeChar_append_lt hchars _ _
  | cons _ ih =>
    rw [List.flatMap_cons, List.flatMap_cons]
    exact List.append_left_lt ih

theorem toList_toUTF8 (text : String) :
    text.toUTF8.data.toList = text.toList.flatMap String.utf8EncodeChar := by
  have htext : text.toUTF8 = (text.toList.flatMap String.utf8EncodeChar).toByteArray := by
    change text.toByteArray = text.toList.utf8Encode
    rw [← String.toByteArray_ofList, String.ofList_toList]
  rw [htext, List.toList_data_toByteArray]

/-- Texts are in the order of their bytes exactly if they are in the order of their
characters. -/
theorem bytesBefore_iff_lt {left right : String} : BytesBefore left right ↔ left < right := by
  have hmono : ∀ {first last : String}, first < last → BytesBefore first last := by
    intro first last hlt
    rw [BytesBefore, toList_toUTF8, toList_toUTF8]
    exact flatMap_utf8EncodeChar_lt hlt
  constructor
  · intro hbytes
    rcases lt_trichotomy left right with hlt | rfl | hgt
    · exact hlt
    · exact absurd hbytes (List.lt_irrefl _)
    · exact absurd hbytes (List.lt_asymm (hmono hgt))
  · exact hmono

end ClassLang.Text
