import ClassLang.Proofs.Outcome
import Mathlib.Data.List.Forall2

/-!
# What a parser looks at

Parsers read from the front.  A construct is told by its own tokens and the kind
of the one behind it, and a fault by the tokens up to it and the kind of the
next.  Of a token only the kind counts, and the text of names and numbers.
-/

namespace ClassLang

/-- Tokens between which no parser can tell a difference but their places. -/
structure Token.Alike (left right : Token) : Prop where
  kind : left.kind = right.kind
  lexeme : left.kind ∈ [.ident, .int] → left.lexeme = right.lexeme

abbrev AllAlike : List Token → List Token → Prop :=
  List.Forall₂ Token.Alike

theorem Token.Alike.refl (token : Token) : token.Alike token :=
  ⟨rfl, fun _ => rfl⟩

theorem Token.Alike.name {token other : Token} (halike : token.Alike other)
    (hkind : token.kind ∈ [.ident]) : other.lexeme = token.lexeme :=
  (halike.lexeme (List.mem_cons.mpr (.inl (List.mem_singleton.mp hkind)))).symm

theorem AllAlike.refl (tokens : List Token) : AllAlike tokens tokens :=
  List.forall₂_same.mpr fun token _ => .refl token

/-- Tokens like those of two parts are in two such parts. -/
theorem AllAlike.exists_append {used more others : List Token}
    (halike : AllAlike (used ++ more) others) :
    ∃ first last, others = first ++ last ∧ AllAlike used first ∧ AllAlike more last := by
  have htake := List.forall₂_take used.length halike
  have hdrop := List.forall₂_drop used.length halike
  rw [List.take_left] at htake
  rw [List.drop_left] at hdrop
  exact ⟨_, _, (List.take_append_drop used.length others).symm, htake, hdrop⟩

/-- The same fault in another place. -/
def SourceError.moveTo (error : SourceError) (place : Span) : SourceError :=
  match error with
  | .unexpectedCharacter char _ => .unexpectedCharacter char place
  | .unexpectedKind expected got context _ => .unexpectedKind expected got context place
  | .missingStatement _ => .missingStatement place
  | .superWithoutBase className _ => .superWithoutBase className place
  | .integerOutOfRange lexeme _ => .integerOutOfRange lexeme place
  | .unhandledKind kind _ => .unhandledKind kind place

namespace Parser

abbrev Reader (α : Type) : Type :=
  Span → List Token → Except SourceError (α × List Token)

/-- What goes on from a value and the tokens behind it. -/
abbrev Next (α β : Type) : Type :=
  Span → α × List Token → Except SourceError (β × List Token)

/-! ## What stands behind a construct -/

def SamePeek (left right : List Token) : Prop :=
  peek left = peek right

/-- What a parser can see of tokens that it does not read. -/
structure SameFront (left right : List Token) : Prop where
  peek : SamePeek left right
  declaration : startsDeclaration left = startsDeclaration right
  number : Parser.peek left = .int → left.head?.map Token.lexeme = right.head?.map Token.lexeme

theorem SameFront.refl (tokens : List Token) : SameFront tokens tokens :=
  ⟨rfl, rfl, fun _ => rfl⟩

section Append

variable {used others rest after : List Token}

theorem SamePeek.append (halike : AllAlike used others) (hpeek : SamePeek rest after) :
    SamePeek (used ++ rest) (others ++ after) := by
  cases halike with
  | nil => exact hpeek
  | cons htoken _ => exact htoken.kind

theorem SameFront.append_of_ne (halike : AllAlike used others) (hne : used ≠ [])
    (hpeek : SamePeek rest after) : SameFront (used ++ rest) (others ++ after) := by
  cases halike with
  | nil => exact absurd rfl hne
  | @cons token other used others htoken hothers =>
    have hnext : Parser.peek (used ++ rest) = Parser.peek (others ++ after) :=
      hpeek.append hothers
    refine ⟨htoken.kind, ?_, ?_⟩
    · simp [startsDeclaration, htoken.kind, hnext]
    · intro hint
      have hkind : token.kind = .int := hint
      exact congrArg some (htoken.lexeme (by simp [hkind]))

/-- Alike tokens in front leave the next two kinds the same. -/
theorem SameFront.append (halike : AllAlike used others) (hfront : SameFront rest after) :
    SameFront (used ++ rest) (others ++ after) := by
  by_cases hne : used = []
  · subst hne
    cases halike
    exact hfront
  · exact .append_of_ne halike hne hfront.peek

end Append

/-! ## Local readers -/

/-- What the reader does on the given tokens.  When it succeeds, it does so in
the same way on all tokens that start alike and go on with the `same` behind the
construct.  When it fails, it fails in the same way, and in the same place, on
all tokens that look alike up to there.  The fault is one of the tokens: the
reader knows how to go on from every token that it asks for. -/
structure LocalAt {α : Type} (same : List Token → List Token → Prop) (read : Reader α)
    (stop : Span) (tokens : List Token) : Prop where
  success : ∀ {value : α} {rest : List Token}, read stop tokens = .ok (value, rest) →
    ∃ used, tokens = used ++ rest ∧ (∀ token ∈ used, token.kind ≠ .eof) ∧
      ∀ {others after : List Token} (other : Span), AllAlike used others → same rest after →
        read other (others ++ after) = .ok (value, after)
  failure : ∀ {error : SourceError}, read stop tokens = .error error →
    ∃ used rest, tokens = used ++ rest ∧ (∀ token ∈ used, token.kind ≠ .eof) ∧
      error.span = peekSpan stop rest ∧
      ∀ {others after : List Token} (other : Span), AllAlike used others →
        SameFront rest after →
        read other (others ++ after) = .error (error.moveTo (peekSpan other after))
  handled : ∀ {error : SourceError}, read stop tokens = .error error → error.isUnhandled = false

namespace LocalAt

variable {α β : Type} {same : List Token → List Token → Prop} {read read' : Reader α}
  {stop : Span} {token : Token} {tokens rest : List Token}

theorem of_eq (heq : ∀ stop tokens, read stop tokens = read' stop tokens)
    (hlocal : LocalAt same read' stop tokens) : LocalAt same read stop tokens := by
  have hread : read = read' := funext fun stop => funext (heq stop)
  exact hread ▸ hlocal

theorem pure (value : α) : LocalAt same (fun _ tokens => .ok (value, tokens)) stop tokens := by
  constructor
  · intro _ _ heq
    cases heq
    refine ⟨[], rfl, by simp, ?_⟩
    intro others after other hothers _
    cases hothers
    rfl
  · intro _ heq
    cases heq
  · intro _ heq
    cases heq

/-- A reader that fails in front of the tokens. -/
theorem fail {error : SourceError} (hspan : error.span = peekSpan stop tokens)
    (hhandled : error.isUnhandled = false)
    (hread : ∀ other after, SameFront tokens after →
      read other after = .error (error.moveTo (peekSpan other after)))
    (heq : read stop tokens = .error error) : LocalAt same read stop tokens := by
  constructor
  · intro _ _ hok
    rw [heq] at hok
    cases hok
  · intro _ hfail
    rw [heq] at hfail
    cases hfail
    refine ⟨[], tokens, rfl, by simp, hspan, ?_⟩
    intro others after other hothers hfront
    cases hothers
    exact hread other after hfront
  · intro _ hfail
    rw [heq] at hfail
    cases hfail
    exact hhandled

/-- A reader that chooses how to go on from what it sees ahead. -/
theorem of_sees {ahead : List Token → List Token → Prop}
    (hfront : ∀ {left right}, SameFront left right → ahead left right)
    (hsame : ∀ {value : α} {used others rest after : List Token}, tokens = used ++ rest →
      read stop tokens = .ok (value, rest) → AllAlike used others → same rest after →
      ahead (used ++ rest) (others ++ after))
    (heq : ∀ other after, ahead tokens after → read other after = read' other after)
    (hlocal : LocalAt same read' stop tokens) : LocalAt same read stop tokens := by
  have hread := heq stop tokens (hfront (.refl tokens))
  constructor
  · intro value rest hok
    obtain ⟨used, rfl, hused, hreadOther⟩ := hlocal.success (hread ▸ hok)
    refine ⟨used, rfl, hused, ?_⟩
    intro others after other hothers hafter
    rw [heq other _ (hsame rfl hok hothers hafter)]
    exact hreadOther other hothers hafter
  · intro error hfail
    rw [hread] at hfail
    obtain ⟨used, rest, rfl, hused, hspan, hreadOther⟩ := hlocal.failure hfail
    refine ⟨used, rest, rfl, hused, hspan, ?_⟩
    intro others after other hothers hafter
    rw [heq other _ (hfront (hafter.append hothers))]
    exact hreadOther other hothers hafter
  · intro error hfail
    rw [hread] at hfail
    exact hlocal.handled hfail

/-- A reader that goes by the kind of the first token. -/
theorem of_peek (hsame : ∀ {left right}, same left right → SamePeek left right)
    (heq : ∀ other after, peek after = peek tokens → read other after = read' other after)
    (hlocal : LocalAt same read' stop tokens) : LocalAt same read stop tokens := by
  refine of_sees (·.peek) ?_ (fun other after hpeek => heq other after hpeek.symm) hlocal
  intro _ _ _ _ _ _ _ hothers hafter
  exact (hsame hafter).append hothers

/-- A reader of constructs that looks further ahead. -/
theorem of_front
    (hshorter : ∀ {value : α} {rest : List Token}, read stop tokens = .ok (value, rest) →
      rest.length < tokens.length)
    (heq : ∀ other after, SameFront tokens after → read other after = read' other after)
    (hlocal : LocalAt SamePeek read' stop tokens) : LocalAt SamePeek read stop tokens := by
  refine of_sees id ?_ heq hlocal
  intro value used others rest after htokens hok hothers hafter
  refine .append_of_ne hothers ?_ hafter
  rintro rfl
  rw [List.nil_append] at htokens
  exact absurd (hshorter hok) (htokens ▸ Nat.lt_irrefl _)

/-- A reader that takes its first token. -/
theorem cons (hkind : token.kind ≠ .eof)
    (heq : ∀ other first after, token.Alike first →
      read other (first :: after) = read' other after)
    (hlocal : LocalAt same read' stop rest) : LocalAt same read stop (token :: rest) := by
  have hread := heq stop token rest (.refl token)
  constructor
  · intro value rest hok
    rw [hread] at hok
    obtain ⟨used, rfl, hused, hok⟩ := hlocal.success hok
    refine ⟨token :: used, rfl, List.forall_mem_cons.mpr ⟨hkind, hused⟩, ?_⟩
    intro others after other hothers hafter
    cases hothers with
    | cons hfirst hothers =>
      rw [List.cons_append, heq other _ _ hfirst]
      exact hok other hothers hafter
  · intro error hfail
    rw [hread] at hfail
    obtain ⟨used, rest, rfl, hused, hspan, hfail⟩ := hlocal.failure hfail
    refine ⟨token :: used, rest, rfl, List.forall_mem_cons.mpr ⟨hkind, hused⟩, hspan, ?_⟩
    intro others after other hothers hfront
    cases hothers with
    | cons hfirst hothers =>
      rw [List.cons_append, heq other _ _ hfirst]
      exact hfail other hothers hfront
  · intro error hfail
    rw [hread] at hfail
    exact hlocal.handled hfail

/-- A reader that leaves its first token out. -/
theorem tail (hend : peek tokens ≠ .eof) (hlocal : LocalAt same read stop tokens.tail) :
    LocalAt same (fun stop tokens => read stop tokens.tail) stop tokens := by
  cases tokens with
  | nil => exact absurd rfl hend
  | cons token rest => exact cons hend (fun _ _ _ _ => rfl) hlocal

/-- A reader that goes on with another one.  What the first one sees behind its
construct is what the second one reads, or what comes after both. -/
theorem bind_of_sees {ahead : List Token → List Token → Prop} {first : Reader α}
    {next : Next α β} (hfirst : LocalAt ahead first stop tokens)
    (hnext : ∀ value rest, first stop tokens = .ok (value, rest) →
      LocalAt same (fun stop rest => next stop (value, rest)) stop rest)
    (hfront : ∀ {left right}, SameFront left right → ahead left right)
    (hsame : ∀ {value : α} {result : β} {used others rest after : List Token},
      next stop (value, used ++ rest) = .ok (result, rest) → AllAlike used others →
      same rest after → ahead (used ++ rest) (others ++ after)) :
    LocalAt same (fun stop tokens => first stop tokens >>= next stop) stop tokens := by
  constructor
  · intro result rest hok
    obtain ⟨⟨value, middle⟩, hvalue, hresult⟩ := bind_eq_ok hok
    obtain ⟨used, rfl, hused, hreadFirst⟩ := hfirst.success hvalue
    obtain ⟨more, rfl, hmore, hreadNext⟩ := (hnext value middle hvalue).success hresult
    refine ⟨used ++ more, by simp, by simpa [or_imp, forall_and] using ⟨hused, hmore⟩, ?_⟩
    intro others after other hothers hafter
    obtain ⟨front, back, rfl, hfrontAlike, hback⟩ := hothers.exists_append
    rw [List.append_assoc, hreadFirst other hfrontAlike (hsame hresult hback hafter)]
    exact hreadNext other hback hafter
  · intro error hfail
    rcases bind_eq_error hfail with hsooner | ⟨⟨value, middle⟩, hvalue, hlater⟩
    · obtain ⟨used, rest, rfl, hused, hspan, hreadFirst⟩ := hfirst.failure hsooner
      refine ⟨used, rest, rfl, hused, hspan, ?_⟩
      intro others after other hothers hafter
      rw [hreadFirst other hothers hafter]
      rfl
    · obtain ⟨used, rfl, hused, hreadFirst⟩ := hfirst.success hvalue
      obtain ⟨more, rest, rfl, hmore, hspan, hreadNext⟩ :=
        (hnext value middle hvalue).failure hlater
      refine ⟨used ++ more, rest, by simp, by simpa [or_imp, forall_and] using ⟨hused, hmore⟩,
        hspan, ?_⟩
      intro others after other hothers hafter
      obtain ⟨front, back, rfl, hfrontAlike, hback⟩ := hothers.exists_append
      rw [List.append_assoc, hreadFirst other hfrontAlike (hfront (hafter.append hback))]
      exact hreadNext other hback hafter
  · intro error hfail
    rcases bind_eq_error hfail with hsooner | ⟨⟨value, middle⟩, hvalue, hlater⟩
    · exact hfirst.handled hsooner
    · exact (hnext value middle hvalue).handled hlater

/-- A reader that goes on with another one. -/
theorem bind {first : Reader α} {next : Next α β}
    (hsame : ∀ {left right}, same left right → SamePeek left right)
    (hfirst : LocalAt SamePeek first stop tokens)
    (hnext : ∀ value rest, first stop tokens = .ok (value, rest) →
      LocalAt same (fun stop rest => next stop (value, rest)) stop rest) :
    LocalAt same (fun stop tokens => first stop tokens >>= next stop) stop tokens :=
  bind_of_sees hfirst hnext (·.peek) fun _ hothers hafter => (hsame hafter).append hothers

/-- A loop that looks further ahead is followed by a construct. -/
theorem bind_construct {first : Reader α} {next : Next α β}
    (hfirst : LocalAt SameFront first stop tokens)
    (hnext : ∀ value rest, first stop tokens = .ok (value, rest) →
      LocalAt SamePeek (fun stop rest => next stop (value, rest)) stop rest)
    (hshorter : ∀ {value result tokens rest}, next stop (value, tokens) = .ok (result, rest) →
      rest.length < tokens.length) :
    LocalAt SamePeek (fun stop tokens => first stop tokens >>= next stop) stop tokens := by
  refine bind_of_sees hfirst hnext id ?_
  intro value result used others rest after hresult hothers hafter
  refine .append_of_ne hothers ?_ hafter
  rintro rfl
  exact absurd (hshorter hresult) (Nat.lt_irrefl _)

/-- A reader whose result is changed. -/
theorem map {next : Next α β} {change : α → β}
    (hnext : ∀ other value rest, next other (value, rest) = .ok (change value, rest))
    (hlocal : LocalAt same read stop tokens) :
    LocalAt same (fun stop tokens => read stop tokens >>= next stop) stop tokens := by
  constructor
  · intro result rest hok
    obtain ⟨⟨value, middle⟩, hvalue, hresult⟩ := bind_eq_ok hok
    rw [hnext] at hresult
    cases hresult
    obtain ⟨used, rfl, hused, hread⟩ := hlocal.success hvalue
    refine ⟨used, rfl, hused, ?_⟩
    intro others after other hothers hafter
    rw [hread other hothers hafter]
    exact hnext other value after
  · intro error hfail
    rcases bind_eq_error hfail with hsooner | ⟨⟨value, middle⟩, _, hlater⟩
    · obtain ⟨used, rest, rfl, hused, hspan, hread⟩ := hlocal.failure hsooner
      refine ⟨used, rest, rfl, hused, hspan, ?_⟩
      intro others after other hothers hafter
      rw [hread other hothers hafter]
      rfl
    · rw [hnext] at hlater
      cases hlater
  · intro error hfail
    rcases bind_eq_error hfail with hsooner | ⟨⟨value, middle⟩, _, hlater⟩
    · exact hlocal.handled hsooner
    · rw [hnext] at hlater
      cases hlater

/-- A reader that starts with a token of one of the given kinds. -/
theorem expect {context : String} {kinds : List Kind} {next : Next Token β} (hend : .eof ∉ kinds)
    (halike : ∀ {token first : Token} (other : Span) (rest : List Token),
      peek tokens = token.kind → token.kind ∈ kinds → token.Alike first →
      next other (first, rest) = next other (token, rest))
    (hnext : ∀ token rest, tokens = token :: rest → token.kind ∈ kinds →
      LocalAt same (fun stop rest => next stop (token, rest)) stop rest) :
    LocalAt same
      (fun stop tokens => Parsed.outcome (Parser.expect stop context kinds tokens) >>= next stop)
      stop tokens := by
  by_cases hpeek : peek tokens ∈ kinds
  · cases tokens with
    | nil => exact absurd hpeek hend
    | cons token rest =>
      have hkind : token.kind ∈ kinds := hpeek
      refine cons (fun heof => hend (heof ▸ hkind)) ?_ (hnext token rest rfl hkind)
      intro other first after hfirst
      rw [outcome_expect_cons other context after (hfirst.kind ▸ hkind)]
      exact halike other after rfl hkind hfirst
  · have hfail := outcome_expect_of_not_mem stop context hpeek
    refine fail rfl rfl ?_ (by rw [hfail]; rfl)
    intro other after hfront
    have hsame : peek tokens = peek after := hfront.peek
    have hafter : peek after ∉ kinds := hsame ▸ hpeek
    rw [outcome_expect_of_not_mem other context hafter, hsame]
    rfl

/-- A reader that starts with a name. -/
theorem expect_name {context : String} {next : Next Token β}
    (hlexeme : ∀ {token first : Token} (other : Span) (rest : List Token),
      first.lexeme = token.lexeme → next other (first, rest) = next other (token, rest))
    (hnext : ∀ token rest, tokens = token :: rest →
      LocalAt same (fun stop rest => next stop (token, rest)) stop rest) :
    LocalAt same
      (fun stop tokens => Parsed.outcome (Parser.expect stop context [.ident] tokens) >>= next stop)
      stop tokens := by
  apply expect (by decide)
  · intro token first other rest _ hkind halike
    exact hlexeme other rest (halike.name hkind)
  · intro token rest heq _
    exact hnext token rest heq

end LocalAt

end Parser

end ClassLang
