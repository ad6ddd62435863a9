/-!
# Tables of code points

A character class of the Unicode standard is a sorted list of closed ranges.
Membership walks the list and stops at the first range that starts above the
character, so that the common case of an ASCII character is decided at once.
-/

namespace ClassLang.Text

/-- Sorted, disjoint ranges of code points, each given by its first and last
member. -/
abbrev CodeTable := List (Nat × Nat)

namespace CodeTable

def containsCode : CodeTable → Nat → Bool
  | [], _ => false
  | (first, last) :: table, code =>
    if code < first then false
    else if code ≤ last then true
    else containsCode table code

def contains (table : CodeTable) (c : Char) : Bool :=
  table.containsCode c.toNat

/-- A member of a table lies in one of its ranges. -/
theorem exists_range_of_containsCode {table : CodeTable} {code : Nat}
    (hmem : table.containsCode code = true) :
    ∃ range ∈ table, range.1 ≤ code ∧ code ≤ range.2 := by
  induction table with
  | nil => simp [containsCode] at hmem
  | cons range table ih =>
      obtain ⟨first, last⟩ := range
      simp only [containsCode] at hmem
      split at hmem
      · simp at hmem
      · split at hmem
        · exact ⟨(first, last), by simp, by simp only; omega⟩
        · obtain ⟨range, hrange, hbounds⟩ := ih hmem
          exact ⟨range, by simp [hrange], hbounds⟩

end CodeTable

end ClassLang.Text
