import ClassLang.Token.Span
import ClassLang.Token.Kind
import ClassLang.Text.Quoted

/-!
# What can be wrong with a source

Reading a source stops at its first fault.  Every fault has a place, and one
function gives the message for all of them.
-/

namespace ClassLang

inductive SourceError where
  /-- No token starts with this character. -/
  | unexpectedCharacter (char : Char) (span : Span)
  /-- The construct named by `context` cannot go on with a token of kind `got`. -/
  | unexpectedKind (expected : List Kind) (got : Kind) (context : String) (span : Span)
  /-- There are only classes, or nothing at all. -/
  | missingStatement (span : Span)
  | superWithoutBase (className : String) (span : Span)
  /-- The lexeme writes no integer of 64 bits. -/
  | integerOutOfRange (lexeme : String) (span : Span)
  /-- A parser asked for tokens of this kind and does not know how to go on.
  This would be a fault of the parser, and no tokens lead to it. -/
  | unhandledKind (kind : Kind) (span : Span)
  deriving DecidableEq, Repr

namespace SourceError

def span : SourceError → Span
  | unexpectedCharacter _ span => span
  | unexpectedKind _ _ _ span => span
  | missingStatement span => span
  | superWithoutBase _ span => span
  | integerOutOfRange _ span => span
  | unhandledKind _ span => span

/-- Whether the parser is to blame for the fault, and not the source. -/
def isUnhandled : SourceError → Bool
  | unhandledKind _ _ => true
  | _ => false

def kindList (kinds : List Kind) : String :=
  "[" ++ " ".intercalate (kinds.map Kind.label) ++ "]"

/-- What is wrong, without its place. -/
def summary : SourceError → String
  | unexpectedCharacter char _ => "unexpected character " ++ Text.quoteChar char
  | unexpectedKind expected got context _ =>
    "got a " ++ got.label ++ ", expected one of " ++ kindList expected
      ++ (if context.isEmpty then "" else " in " ++ context)
  | missingStatement _ => "a program must end with at least one statement"
  | superWithoutBase className _ =>
    "class " ++ className ++ " calls super but does not extend a class"
  | integerOutOfRange lexeme _ => "integer literal " ++ lexeme ++ " is out of range"
  | unhandledKind kind _ => "unhandled " ++ kind.label

def message (error : SourceError) : String :=
  error.summary ++ ". " ++ error.span.text

end SourceError

end ClassLang
