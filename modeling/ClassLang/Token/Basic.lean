import ClassLang.Token.Kind
import ClassLang.Token.Span

/-!
# Tokens
-/

namespace ClassLang

structure Token where
  kind : Kind
  lexeme : String
  span : Span
  deriving DecidableEq, Repr

/-- The line on which the token starts. -/
def Token.line (token : Token) : Int :=
  token.span.first.line

end ClassLang
