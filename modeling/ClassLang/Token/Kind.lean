import ClassLang.Text.Decimal

/-!
# Token kinds

A kind says what a token is, independently of how it was spelled.  Each kind
has a number and a label; the labels are what error messages and token listings
show, and a number outside the table is shown as itself.
-/

namespace ClassLang

inductive Kind where
  | eof
  | illegal
  | plus
  | minus
  | star
  | slash
  | equals
  | equalsEquals
  | notEquals
  | andAnd
  | orOr
  | openBrace
  | closeBrace
  | openParen
  | closeParen
  | comma
  | semicolon
  | period
  | int
  | ident
  | varWord
  | intWord
  | boolWord
  | voidWord
  | thisWord
  | trueWord
  | falseWord
  | printlnWord
  | newWord
  | whileWord
  | breakWord
  | returnWord
  | ifWord
  | elseWord
  | methodWord
  | initWord
  | superWord
  | classWord
  | extendsWord
  /-- A number that stands for no kind of the language. -/
  | other (code : Int)
  deriving DecidableEq, Repr

namespace Kind

/-- The kinds of the language; each stands at the place of its number. -/
def table : List Kind :=
  [eof, illegal, plus, minus, star, slash, equals, equalsEquals, notEquals, andAnd, orOr,
   openBrace, closeBrace, openParen, closeParen, comma, semicolon, period, int, ident,
   varWord, intWord, boolWord, voidWord, thisWord, trueWord, falseWord, printlnWord, newWord,
   whileWord, breakWord, returnWord, ifWord, elseWord, methodWord, initWord, superWord,
   classWord, extendsWord]

def ofCode (code : Int) : Kind :=
  if code < 0 then .other code
  else (table[code.toNat]?).getD (.other code)

def label : Kind → String
  | eof => "EOF"
  | illegal => "ILLEGAL"
  | plus => "PLUS"
  | minus => "MINUS"
  | star => "STAR"
  | slash => "SLASH"
  | equals => "EQUALS"
  | equalsEquals => "EQEQ"
  | notEquals => "NOTEQ"
  | andAnd => "ANDAND"
  | orOr => "OROR"
  | openBrace => "LBRACKET"
  | closeBrace => "RBRACKET"
  | openParen => "LPAREN"
  | closeParen => "RPAREN"
  | comma => "COMMA"
  | semicolon => "EOS"
  | period => "PERIOD"
  | int => "INT"
  | ident => "IDENT"
  | varWord => "VAR"
  | intWord => "INTTYPE"
  | boolWord => "BOOLTYPE"
  | voidWord => "VOIDTYPE"
  | thisWord => "THIS"
  | trueWord => "TRUE"
  | falseWord => "FALSE"
  | printlnWord => "PRINTLN"
  | newWord => "NEW"
  | whileWord => "WHILE"
  | breakWord => "BREAK"
  | returnWord => "RETURN"
  | ifWord => "IF"
  | elseWord => "ELSE"
  | methodWord => "METHOD"
  | initWord => "INIT"
  | superWord => "SUPER"
  | classWord => "CLASS"
  | extendsWord => "EXTENDS"
  | other code => "TokenKind(" ++ Text.decimal code ++ ")"

/-- The kind of the language with the given label. -/
def ofLabel? (text : String) : Option Kind :=
  table.find? fun kind => kind.label == text

/-- The words for the built-in types. -/
def isType : Kind → Bool
  | intWord | boolWord | voidWord => true
  | _ => false

/-- The keywords in lowercase.  No name of a program is spelled like one of
them in any mix of cases. -/
def keywords : List (String × Kind) :=
  [("var", varWord), ("int", intWord), ("bool", boolWord), ("void", voidWord),
   ("this", thisWord), ("super", superWord), ("init", initWord), ("method", methodWord),
   ("else", elseWord), ("if", ifWord), ("return", returnWord), ("break", breakWord),
   ("new", newWord), ("println", printlnWord), ("false", falseWord), ("true", trueWord),
   ("while", whileWord), ("class", classWord), ("extends", extendsWord)]

/-- The tokens of one character that need no look at the next one. -/
def ofSymbol? : Char → Option Kind
  | '+' => some plus
  | '-' => some minus
  | '*' => some star
  | '/' => some slash
  | '\x7b' => some openBrace
  | '\x7d' => some closeBrace
  | '(' => some openParen
  | ')' => some closeParen
  | ',' => some comma
  | ';' => some semicolon
  | '.' => some period
  | _ => none

end Kind

end ClassLang
