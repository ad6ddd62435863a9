import ClassLang.Yaml.Fault
import ClassLang.Yaml.Scalar

/-!
# Tokens of a document

Indentation is turned into tokens that open and close lists and mappings, so
that they look alike whether they are written in brackets or not.
-/

namespace ClassLang.Yaml

inductive TokenKind where
  | version (major minor : Nat)
  /-- A handle that tags may use, and what it stands for. -/
  | handle (handle expansion : String)
  | documentStart
  | documentEnd
  | sequenceStart
  | mappingStart
  /-- The end of a list or a mapping that is not in brackets. -/
  | blockEnd
  | openSequence
  | closeSequence
  | openMapping
  | closeMapping
  | entry
  | comma
  | key
  | value
  | alias (name : String)
  | anchor (name : String)
  | tag (handle suffix : String)
  | scalar (scalar : Scalar)
  | textEnd
  deriving DecidableEq

structure Token where
  kind : TokenKind
  /-- The line on which the token starts. -/
  line : Nat
  deriving DecidableEq

/-- The tokens of a text up to its end or up to a fault. -/
structure Tokens where
  tokens : List Token
  /-- What to report if more tokens are wanted. -/
  stop : Fault

end ClassLang.Yaml
