import ClassLang.Text.Decimal

/-!
# Faults of a document

A text may fail to be a document for three reasons: its bytes are no text, its
characters form no tokens, or its tokens form no document.
-/

namespace ClassLang.Yaml

/-- What is wrong with bytes. -/
inductive EncodingProblem where
  | badLead
  | badTail
  | incomplete
  | badLength
  | badCode
  | incompleteUnit
  | lowHalf
  | incompletePair
  | noLowHalf
  | controlCharacter
  deriving DecidableEq

def EncodingProblem.message : EncodingProblem → String
  | .badLead => "invalid leading UTF-8 octet"
  | .badTail => "invalid trailing UTF-8 octet"
  | .incomplete => "incomplete UTF-8 octet sequence"
  | .badLength => "invalid length of a UTF-8 sequence"
  | .badCode => "invalid Unicode character"
  | .incompleteUnit => "incomplete UTF-16 character"
  | .lowHalf => "unexpected low surrogate area"
  | .incompletePair => "incomplete UTF-16 surrogate pair"
  | .noLowHalf => "expected low surrogate area"
  | .controlCharacter => "control characters are not allowed"

/-- What is wrong with the characters at some place. -/
inductive TextProblem where
  | badStart
  | expectedColon
  | nestedEntries
  | nestedKeys
  | nestedValues
  | unexpectedMark
  | unexpectedEnd
  | unknownEscape
  | expectedHexDigits
  | invalidCode
  | tabIndentation
  | zeroIndentation
  | tabInBlock
  | expectedLineBreak
  | expectedName
  | expectedSpacing
  | expectedBlank
  | expectedTagEnd
  | expectedTag
  | expectedHandle
  | badOctet
  | badLeadOctet
  | badTailOctet
  | expectedDirective
  | badDirective
  | unknownDirective
  | expectedVersion
  | expectedPoint
  | longVersion
  deriving DecidableEq

def TextProblem.message : TextProblem → String
  | .badStart => "found character that cannot start any token"
  | .expectedColon => "could not find expected ':'"
  | .nestedEntries => "block sequence entries are not allowed in this context"
  | .nestedKeys => "mapping keys are not allowed in this context"
  | .nestedValues => "mapping values are not allowed in this context"
  | .unexpectedMark => "found unexpected document indicator"
  | .unexpectedEnd => "found unexpected end of stream"
  | .unknownEscape => "found unknown escape character"
  | .expectedHexDigits => "did not find expected hexdecimal number"
  | .invalidCode => "found invalid Unicode character escape code"
  | .tabIndentation => "found a tab character that violates indentation"
  | .zeroIndentation => "found an indentation indicator equal to 0"
  | .tabInBlock => "found a tab character where an indentation space is expected"
  | .expectedLineBreak => "did not find expected comment or line break"
  | .expectedName => "did not find expected alphabetic or numeric character"
  | .expectedSpacing => "did not find expected whitespace or line break"
  | .expectedBlank => "did not find expected whitespace"
  | .expectedTagEnd => "did not find the expected '>'"
  | .expectedTag => "did not find expected tag URI"
  | .expectedHandle => "did not find expected '!'"
  | .badOctet => "did not find URI escaped octet"
  | .badLeadOctet => "found an incorrect leading UTF-8 octet"
  | .badTailOctet => "found an incorrect trailing UTF-8 octet"
  | .expectedDirective => "could not find expected directive name"
  | .badDirective => "found unexpected non-alphabetical character"
  | .unknownDirective => "found unknown directive name"
  | .expectedVersion => "did not find expected version number"
  | .expectedPoint => "did not find expected digit or '.' character"
  | .longVersion => "found extremely long version number"

/-- What is wrong with the order of tokens. -/
inductive TokenProblem where
  | expectedStart
  | expectedContent
  | expectedEntry
  | expectedKey
  | unclosedSequence
  | unclosedMapping
  | undefinedHandle
  | repeatedVersion
  | otherVersion
  | repeatedHandle
  deriving DecidableEq

def TokenProblem.message : TokenProblem → String
  | .expectedStart => "did not find expected <document start>"
  | .expectedContent => "did not find expected node content"
  | .expectedEntry => "did not find expected '-' indicator"
  | .expectedKey => "did not find expected key"
  | .unclosedSequence => "did not find expected ',' or ']'"
  | .unclosedMapping => "did not find expected ',' or '\x7d'"
  | .undefinedHandle => "found undefined tag handle"
  | .repeatedVersion => "found duplicate %YAML directive"
  | .otherVersion => "found incompatible YAML document"
  | .repeatedHandle => "found duplicate %TAG directive"

/-- Lines are counted from zero. -/
inductive Fault where
  | encoding (problem : EncodingProblem)
  | text (line : Nat) (problem : TextProblem)
  | token (line : Nat) (problem : TokenProblem)
  | unknownAnchor (name : String)
  deriving DecidableEq

/-- The first line is not mentioned.  The line of a fault in the text is given
counted from one, that of a token out of order counted from zero. -/
def Fault.message : Fault → String
  | .encoding problem => problem.message
  | .text line problem =>
    (if line == 0 then "" else "line " ++ Text.decimal (line + 1) ++ ": ") ++ problem.message
  | .token line problem =>
    (if line == 0 then "" else "line " ++ Text.decimal line ++ ": ") ++ problem.message
  | .unknownAnchor name => "unknown anchor '" ++ name ++ "' referenced"

end ClassLang.Yaml
