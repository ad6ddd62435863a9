import ClassLang.Yaml.Node

/-!
# Documents

A document is one value with what is named in it.  A text may hold several
documents, but only the first is read.  Directives may come before it, and then
or to divide it from others a line with a mark starts it.
-/

namespace ClassLang.Yaml

structure Document where
  root : Node
  anchors : Anchors

namespace Document

/-- The named value with the given number. -/
def value (document : Document) (number : Nat) : Node :=
  (document.anchors.values.lookup number).getD (nothingAt 0)

/-- Whether a value is a mapping.  An alias is one if its name is in the end that
of a mapping. -/
def isMapping (document : Document) : Node → Bool
  | .mapping .. => true
  | .alias name .. =>
    match document.anchors.last? name with
    | some (.mapping ..) => true
    | _ => false
  | _ => false

end Document

def Document.empty (line : Nat) : Document :=
  ⟨nothingAt line, .empty⟩

/-- The handles that every document has. -/
def defaultHandles : List (String × String) :=
  [("!", "!"), ("!!", "tag:yaml.org,2002:")]

/-- The directives at the start of a document, as the handles that they declare,
and the tokens after them. -/
def readDirectives (hasVersion : Bool) (handles : List (String × String)) :
    List Token → Except Fault (List (String × String) × List Token)
  | ⟨.version major minor, line⟩ :: rest =>
    if hasVersion then .error (.token line .repeatedVersion)
    else if major != 1 || minor != 1 then .error (.token line .otherVersion)
    else readDirectives true handles rest
  | ⟨.handle handle expansion, line⟩ :: rest =>
    if (handles.lookup handle).isSome then .error (.token line .repeatedHandle)
    else readDirectives hasVersion ((handle, expansion) :: handles) rest
  | tokens => .ok (handles, tokens)

def isDirective : TokenKind → Bool
  | .version _ _ => true
  | .handle _ _ => true
  | _ => false

/-- Whether a token can only stand between documents. -/
def endsDocument (kind : TokenKind) : Bool :=
  isDirective kind || [.documentStart, .documentEnd, .textEnd].contains kind

/-- The first document, if it has a value.  A token has to follow the value, but
it can be any. -/
def readDocument (context : Context) (tokens : List Token) : Except Fault Document := do
  let ⟨(root, anchors), after, _⟩ ← readNode context .block .empty tokens
  if after.isEmpty then throw context.stop
  return ⟨root, anchors⟩

/-- A document that starts with a mark. -/
def readMarkedDocument (stop : Fault) (tokens : List Token) : Except Fault Document := do
  let (handles, afterDirectives) ← readDirectives false [] tokens
  let context : Context := ⟨stop, handles ++ defaultHandles⟩
  match afterDirectives with
  | [] => throw stop
  | token :: rest =>
    if token.kind != .documentStart then throw (.token token.line .expectedStart)
    match rest with
    | [] => throw stop
    | next :: _ =>
      if endsDocument next.kind then return .empty next.line
      else readDocument context rest

/-- The first document of a text. -/
def Document.ofTokens (tokens : Tokens) : Except Fault Document :=
  match tokens.tokens with
  | [] => .error tokens.stop
  | token :: rest =>
    if token.kind == .textEnd then .ok (.empty token.line)
    else if isDirective token.kind || token.kind == .documentStart then
      readMarkedDocument tokens.stop (token :: rest)
    else readDocument ⟨tokens.stop, defaultHandles⟩ (token :: rest)

def Document.ofBytes (bytes : ByteArray) : Except Fault Document :=
  Document.ofTokens (Tokens.ofSource (Source.ofBytes bytes))

end ClassLang.Yaml
