import ClassLang.Proofs.Soundness.Expression

/-!
# Kinds that can come next

A parser that stops names the kinds it could have gone on with.  Whether a kind
can come next is a question to the grammar: the lexemes that were read, one of
that kind and some more have to make up a construct.
-/

namespace ClassLang

/-- A lexeme of the given kind. -/
def Lexeme.sample (kind : Kind) : Lexeme :=
  ⟨kind, if kind = .int then ['0'] else ['x']⟩

theorem Lexeme.kind_sample (kind : Kind) : (sample kind).kind = kind := rfl

theorem Lexeme.proper_sample (kind : Kind) : (sample kind).Proper := by
  constructor
  · intro hident
    rw [kind_sample] at hident
    subst hident
    decide
  · intro hint
    rw [kind_sample] at hint
    subst hint
    decide

namespace Grammar

variable {α β : Type} {IsItem : List Lexeme → α → Prop}

/-- Some more lexemes make a construct of the given ones. -/
def Completes (IsItem : List Lexeme → α → Prop) (lexemes : List Lexeme) : Prop :=
  ∃ (more : List Kind) (item : α), IsItem (lexemes ++ more.map Lexeme.sample) item

theorem Completes.intro {lexemes whole : List Lexeme} {item : α} (hitem : IsItem whole item)
    (more : List Kind) (hwhole : lexemes ++ more.map Lexeme.sample = whole) :
    Completes IsItem lexemes :=
  ⟨more, item, hwhole ▸ hitem⟩

/-- Each of the kinds can come next. -/
def Viable (IsItem : List Lexeme → α → Prop) (lexemes : List Lexeme) (kinds : List Kind) : Prop :=
  ∀ kind ∈ kinds, Completes IsItem (lexemes ++ [Lexeme.sample kind])

/-- A construct and the lexeme that ends it. -/
inductive IsClosed (kind : Kind) (IsItem : List Lexeme → α → Prop) : List Lexeme → α → Prop
  | intro {inner : List Lexeme} {closing : Lexeme} {item : α} :
      IsItem inner item → closing.kind = kind → IsClosed kind IsItem (inner ++ [closing]) item

end Grammar

open Grammar

namespace Parser

variable {α β : Type} {IsItem : List Lexeme → α → Prop} {IsOuter : List Lexeme → β → Prop}
  {stop : Span} {tokens rest : List Token} {error : SourceError}

/-- If the error is a token of an unexpected kind, then other kinds are expected,
and the tokens in front of that token can go on with each of these. -/
def Blocked (stop : Span) (IsItem : List Lexeme → α → Prop) (tokens : List Token)
    (error : SourceError) : Prop :=
  ∀ (kinds : List Kind) (got : Kind) (context : String) (span : Span),
    error = .unexpectedKind kinds got context span →
    ∃ used rest, tokens = used ++ rest ∧ span = peekSpan stop rest ∧ got = peek rest ∧
      got ∉ kinds ∧ kinds ≠ [] ∧ Viable IsItem (used.map Token.toLexeme) kinds

/-- What is expected inside a construct is expected of the whole. -/
theorem Blocked.within (hblocked : Blocked stop IsItem rest error) (front : List Token)
    (hsplit : tokens = front ++ rest)
    (hwithin : ∀ {lexemes : List Lexeme} {item : α}, IsItem lexemes item →
      Completes IsOuter (front.map Token.toLexeme ++ lexemes)) :
    Blocked stop IsOuter tokens error := by
  intro kinds got context span herror
  obtain ⟨used, after, rfl, hspan, hgot, hnot, hkinds, hviable⟩ := hblocked _ _ _ _ herror
  refine ⟨front ++ used, after, by rw [hsplit, List.append_assoc], hspan, hgot, hnot, hkinds, ?_⟩
  intro kind hkind
  obtain ⟨more, item, hitem⟩ := hviable kind hkind
  obtain ⟨others, outer, houter⟩ := hwithin hitem
  exact .intro houter (more ++ others) (by simp)

/-- A token that is not one of the expected kinds blocks a construct, if each of them can
be completed. -/
theorem Blocked.of_expect {context : String} {kinds : List Kind}
    (heq : Parsed.outcome (expect stop context kinds rest) = .error error) (hend : .eof ∉ kinds)
    (hkinds : kinds ≠ []) (front : List Token) (hsplit : tokens = front ++ rest)
    (hviable : Viable IsItem (front.map Token.toLexeme) kinds) :
    Blocked stop IsItem tokens error := by
  intro expected got place span herror
  by_cases hpeek : peek rest ∈ kinds
  · cases rest with
    | nil => exact absurd hpeek hend
    | cons token rest =>
      rw [outcome_expect_cons stop context rest hpeek] at heq
      cases heq
  · rw [outcome_expect_of_not_mem stop context hpeek] at heq
    cases heq
    cases herror
    exact ⟨front, rest, hsplit, rfl, rfl, hpeek, hkinds, hviable⟩

theorem Blocked.of_expect_one {context : String} {kind : Kind}
    (heq : Parsed.outcome (expect stop context [kind] rest) = .error error) (hend : kind ≠ .eof)
    (front : List Token) (hsplit : tokens = front ++ rest)
    (hcompletes : Completes IsItem (front.map Token.toLexeme ++ [Lexeme.sample kind])) :
    Blocked stop IsItem tokens error := by
  refine .of_expect heq ?_ (List.cons_ne_nil _ _) front hsplit ?_
  · rw [List.mem_singleton]
    exact hend.symm
  · intro other hother
    rw [List.mem_singleton.mp hother]
    exact hcompletes

/-- A parser that begins with a token of one kind fails on it or behind it. -/
theorem cases_of_expect {context : String} {kind : Kind}
    {next : Token × List Token → Except SourceError α}
    (heq : Parsed.outcome (expect stop context [kind] tokens) >>= next = .error error) :
    Parsed.outcome (expect stop context [kind] tokens) = .error error ∨
      ∃ token rest, tokens = token :: rest ∧ token.toLexeme.kind = kind ∧
        next (token, rest) = .error error := by
  rcases bind_eq_error heq with hsooner | ⟨⟨token, rest⟩, htoken, hlater⟩
  · exact .inl hsooner
  · obtain ⟨rfl, hkind⟩ := eq_cons_of_outcome_expect htoken
    exact .inr ⟨token, rest, rfl, List.mem_singleton.mp hkind, hlater⟩

/-- When what follows cannot fail, the first step did. -/
theorem eq_error_of_bind {γ δ : Type} {first : Except SourceError γ}
    {next : γ → Except SourceError δ} (heq : first >>= next = .error error)
    (hnext : ∀ found, ∃ value, next found = .ok value) : first = .error error := by
  rcases bind_eq_error heq with hsooner | ⟨found, -, hlater⟩
  · exact hsooner
  · obtain ⟨value, hok⟩ := hnext found
    cases hok.symm.trans hlater

/-- A construct that lacks only its last token. -/
theorem Blocked.of_last {γ : Type} {context : String} {kind : Kind}
    {next : Token × List Token → Except SourceError γ}
    (heq : Parsed.outcome (expect stop context [kind] rest) >>= next = .error error)
    (hnext : ∀ found, ∃ value, next found = .ok value) (hend : kind ≠ .eof)
    (front : List Token) (hsplit : tokens = front ++ rest)
    (hitem : Completes IsItem (front.map Token.toLexeme ++ [Lexeme.sample kind])) :
    Blocked stop IsItem tokens error :=
  .of_expect_one (eq_error_of_bind heq hnext) hend front hsplit hitem

end Parser

end ClassLang
