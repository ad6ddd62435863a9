import ClassLang.Parser.Progress
import ClassLang.SourceError
import ClassLang.Token.Basic

/-!
# Reading from a list of tokens

Every parser of the class language takes the tokens that are still to be read
and returns a tree together with the tokens after it.  This is the form in which
parsers are reasoned about: programs are read by those of `Parser.Indexed`, which
go through an array by places and are proved to do the same.

The end of the list reads like an end token.  Where it stands is not in the
list any more, so each parser is told the span `stop` at which the end is to be
reported.
-/

namespace ClassLang.Parser

/-- The kind of the token at the front. -/
def peek : List Token → Kind
  | [] => .eof
  | token :: _ => token.kind

/-- The span of the token at the front. -/
def peekSpan (stop : Span) : List Token → Span
  | [] => stop
  | token :: _ => token.span

/-- The token at the front, if it is of the given kind. -/
def accept? (kind : Kind) : (tokens : List Token) → Option (Parsed Token tokens)
  | [] => none
  | token :: rest =>
    if token.kind = kind then some ⟨token, rest, Nat.lt_succ_self _⟩ else none

/-- The token at the front, which has to be of one of the given kinds. -/
def expect (stop : Span) (context : String) (kinds : List Kind) :
    (tokens : List Token) → Except SourceError (Parsed Token tokens)
  | [] => .error (.unexpectedKind kinds .eof context stop)
  | token :: rest =>
    if token.kind ∈ kinds then .ok ⟨token, rest, Nat.lt_succ_self _⟩
    else .error (.unexpectedKind kinds token.kind context token.span)

/-- The span at which the end of a list of tokens is reported: the last
character of the last token. -/
def endSpan (tokens : List Token) : Span :=
  match tokens.getLast? with
  | some token => Span.single token.span.last
  | none => Span.nowhere

/-- A parser, applied at any place of a list of tokens.  The place after the
construct is returned with it. -/
def readAt {α : Type}
    (read : Span → (tokens : List Token) → Except SourceError (Parsed α tokens))
    (tokens : List Token) (place : Nat) : Except SourceError (α × Nat) :=
  (read (endSpan tokens) (tokens.drop place)).map fun parsed =>
    (parsed.value, tokens.length - parsed.rest.length)

end ClassLang.Parser
