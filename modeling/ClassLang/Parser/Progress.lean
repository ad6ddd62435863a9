/-!
# Results of reading

A parser takes what is still to be read and returns a value together with the
rest.  A construct takes at least one item, which its result records, so that
every loop and every recursion over constructs comes to an end.
-/

namespace ClassLang.Parser

/-- A construct read from the front of `input`. -/
structure Parsed {ι : Type} (α : Type) (input : List ι) where
  value : α
  rest : List ι
  shorter : rest.length < input.length

/-- What a loop read from the front of `input`, which may be nothing. -/
structure Continued {ι : Type} (α : Type) (input : List ι) where
  value : α
  rest : List ι
  notLonger : rest.length ≤ input.length

section Lengths

variable {ι : Type} {item : ι} {first second third : List ι}

theorem shorter_trans (hlast : third.length < second.length)
    (hfirst : second.length < first.length) : third.length < first.length :=
  Nat.lt_trans hlast hfirst

theorem shorter_of_notLonger (hlast : third.length ≤ second.length)
    (hfirst : second.length < first.length) : third.length < first.length :=
  Nat.lt_of_le_of_lt hlast hfirst

theorem notLonger_of_shorter (hshorter : second.length < first.length) :
    second.length ≤ first.length :=
  Nat.le_of_lt hshorter

theorem notLonger_refl (input : List ι) : input.length ≤ input.length :=
  Nat.le_refl input.length

theorem shorter_cons (hshorter : second.length < first.length) :
    second.length < (item :: first).length :=
  Nat.lt_succ_of_lt hshorter

theorem notLonger_cons (hnotLonger : second.length ≤ first.length) :
    second.length ≤ (item :: first).length :=
  Nat.le_succ_of_le hnotLonger

end Lengths

end ClassLang.Parser
