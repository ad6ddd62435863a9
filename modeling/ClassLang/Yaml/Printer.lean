import ClassLang.Yaml.Block
import ClassLang.Yaml.Quoted
import ClassLang.Yaml.Scalar

/-!
# Writing scalars

A text is written without quotes where it reads back as the same text, else
between single quotes.  Double quotes are for texts that would be taken for
something else, such as a number, and for those with characters that have to be
escaped.  A text of several lines is a literal scalar where that is possible.
-/

namespace ClassLang.Yaml

inductive Style where
  | plain
  | singleQuoted
  | doubleQuoted
  | literal
  deriving DecidableEq

def styleOf (text : String) : Style :=
  let chars := text.toList
  if chars.contains '\n' then if canBeLiteral chars then .literal else .doubleQuoted
  else if !isPlainText text then .doubleQuoted
  else if canBePlain chars then .plain
  else if canBeSingleQuoted chars then .singleQuoted
  else .doubleQuoted

/-- A scalar that reads as the given text, written from a column on. -/
def writeScalar (column : Nat) (text : String) : List Char :=
  let chars := text.toList
  match styleOf text with
  | .plain => writePlain column false chars
  | .singleQuoted => singleQuoted column chars
  | .doubleQuoted => doubleQuoted column chars
  | .literal => literal chars

/-- An entry on lines of its own.  A literal scalar may end its last line itself. -/
def writeEntry (key text : String) : String :=
  let lineEnd := if styleOf text == .literal && endsWithBreak text.toList then "" else "\n"
  key ++ ": " ++ String.ofList (writeScalar (key.length + 2) text) ++ lineEnd

end ClassLang.Yaml
