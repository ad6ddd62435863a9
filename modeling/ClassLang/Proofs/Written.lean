import ClassLang.Proofs.Spelling
import ClassLang.Syntax.Source

/-!
# Texts that write trees

One lemma for each template from which sources and scripts are made: when the
parts write their trees, the filled template writes the tree of the whole.
-/

namespace ClassLang

open Grammar

/-- The text spells a construct of the grammar with the given tree. -/
def Written {α : Type} (IsItem : List Lexeme → α → Prop) (text : String) (item : α) : Prop :=
  ∃ lexemes, Spells text lexemes ∧ IsItem lexemes item

/-- The texts write the trees one after the other. -/
inductive WrittenEach {α : Type} (IsItem : List Lexeme → α → Prop) :
    List String → List α → Prop
  | nil : WrittenEach IsItem [] []
  | cons {text : String} {texts : List String} {item : α} {items : List α} :
      Written IsItem text item → WrittenEach IsItem texts items →
      WrittenEach IsItem (text :: texts) (item :: items)

theorem WrittenEach.map {α : Type} {IsItem : List Lexeme → α → Prop} {text : α → String}
    {items : List α} (hitems : ∀ item ∈ items, Written IsItem (text item) item) :
    WrittenEach IsItem (items.map text) items := by
  induction items with
  | nil => exact .nil
  | cons item items ih =>
    rw [List.forall_mem_cons] at hitems
    exact .cons hitems.1 (ih hitems.2)

/-- Items that are written one by one are a sequence of the grammar. -/
theorem WrittenEach.sequence {α : Type} {IsItem : List Lexeme → α → Prop} {texts : List String}
    {items : List α} (hitems : WrittenEach IsItem texts items) :
    ∃ lexemes, SpellsEach texts lexemes ∧ IsSequence IsItem lexemes items := by
  induction hitems with
  | nil => exact ⟨[], .nil, .nil⟩
  | cons hitem _ ih =>
    obtain ⟨lexemes, hspells, hitem⟩ := hitem
    obtain ⟨others, hothers, hitems⟩ := ih
    exact ⟨lexemes ++ others, .cons hspells hothers, .cons hitem hitems⟩

def openParen : Lexeme := ⟨.openParen, ['(']⟩

def closeParen : Lexeme := ⟨.closeParen, [')']⟩

/-- The rules for constructs with commas between them, and for such a list in
parentheses. -/
structure ListRules {α : Type} (IsItem : List Lexeme → α → Prop)
    (IsList IsWhole : List Lexeme → List α → Prop) : Prop where
  last : ∀ {lexemes item}, IsItem lexemes item → IsList lexemes [item]
  cons : ∀ {lexemes others comma item items}, IsItem lexemes item →
    Lexeme.kind comma = .comma → IsList others items →
    IsList (lexemes ++ comma :: others) (item :: items)
  empty : IsWhole [openParen, closeParen] []
  whole : ∀ {lexemes items}, IsList lexemes items →
    IsWhole (openParen :: lexemes ++ [closeParen]) items

section Lists

variable {α : Type} {IsItem : List Lexeme → α → Prop} {IsList IsWhole : List Lexeme → List α → Prop}
  {texts : List String} {items : List α}

/-- Items with commas between them are a list of the grammar. -/
theorem ListRules.commaSeparated (hrules : ListRules IsItem IsList IsWhole)
    (hitems : WrittenEach IsItem texts items) (hne : items ≠ []) :
    Written IsList (Text.commaSeparated texts) items := by
  have hcomma : SpellsClosed ", " [⟨.comma, [',']⟩] :=
    fun rest => .lexeme rfl (.blank rfl (.done rest))
  induction hitems with
  | nil => exact absurd rfl hne
  | @cons text texts item items hitem hitems ih =>
    obtain ⟨lexemes, hspells, hitem⟩ := hitem
    cases hitems with
    | nil =>
      rw [Text.commaSeparated, String.intercalate_singleton]
      exact ⟨lexemes, hspells, hrules.last hitem⟩
    | cons hnext hmore =>
      obtain ⟨others, hothers, hitems⟩ := ih (List.cons_ne_nil _ _)
      rw [Text.commaSeparated, String.intercalate_cons_cons]
      have hall := (hspells.append_closed hcomma ⟨',', [' '], rfl, rfl⟩).append_spells hothers
      rw [List.append_assoc] at hall
      exact ⟨_, hall, hrules.cons hitem rfl hitems⟩

/-- A list in parentheses, which may be part of longer pieces. -/
theorem ListRules.exists_spells (hrules : ListRules IsItem IsList IsWhole)
    (hitems : WrittenEach IsItem texts items) {opening closing : String}
    (front back : List Lexeme) (hopen : SpellsClosed opening (front ++ [openParen]))
    (hclose : SpellsClosed closing (closeParen :: back)) (hapart : StartsApart closing) :
    ∃ lexemes, SpellsClosed (opening ++ Text.commaSeparated texts ++ closing)
      (front ++ lexemes ++ back) ∧ IsWhole lexemes items := by
  by_cases hne : items = []
  · subst hne
    cases hitems
    have hall := hopen.append hclose
    rw [Text.commaSeparated, String.intercalate_nil, String.append_empty]
    refine ⟨[openParen, closeParen], ?_, hrules.empty⟩
    simpa using hall
  · obtain ⟨lexemes, hspells, hlist⟩ := hrules.commaSeparated hitems hne
    have hall := (hopen.append_spells hspells).append_closed hclose hapart
    refine ⟨openParen :: lexemes ++ [closeParen], ?_, hrules.whole hlist⟩
    simpa using hall

end Lists

theorem argumentRules : ListRules IsSum IsArgumentList IsArguments :=
  ⟨.last, .cons, .none rfl rfl, fun hlist => .some rfl hlist rfl⟩

theorem parameterRules : ListRules IsTypedName IsParameterList IsParameters :=
  ⟨.last, .cons, .none rfl rfl, fun hlist => .some rfl hlist rfl⟩

/-! ## Expressions -/

theorem spells_openParen : SpellsClosed "(" [openParen] :=
  fun rest => .lexeme rfl (.done rest)

theorem spells_closeParen : SpellsClosed ")" [closeParen] :=
  fun rest => .lexeme rfl (.done rest)

theorem spells_period : SpellsClosed "." [⟨.period, ['.']⟩] :=
  fun rest => .lexeme rfl (.done rest)

section Expressions

variable {text inner left right : String} {exp leftExp rightExp : Exp}

/-- A primary expression is a chain without members. -/
theorem Written.chain (hexp : Written IsPrimary text exp) : Written IsChain text exp := by
  obtain ⟨lexemes, hspells, hexp⟩ := hexp
  exact ⟨lexemes, hspells, .primary hexp⟩

/-- A chain is an expression without operators. -/
theorem Written.sum (hexp : Written IsChain text exp) : Written IsSum text exp := by
  obtain ⟨lexemes, hspells, hexp⟩ := hexp
  exact ⟨lexemes, hspells, .product (.chain hexp)⟩

/-- An integer that fits into a word is written in digits. -/
theorem written_int {value : Int} (hlow : 0 ≤ value) (hhigh : value < Text.signedLimit) :
    Written IsPrimary (Text.decimal value) (.int value) := by
  obtain ⟨n, rfl⟩ := Int.eq_ofNat_of_zero_le hlow
  exact ⟨_, spells_decimal n, .int rfl (readNat?_toDigits n) (by omega)⟩

theorem written_bool (value : Bool) :
    Written IsPrimary (if value then "true" else "false") (.bool value) := by
  cases value with
  | false => exact ⟨_, spells_word rfl (by decide) (by decide), .falseWord (by decide)⟩
  | true => exact ⟨_, spells_word rfl (by decide) (by decide), .trueWord (by decide)⟩

theorem written_this : Written IsPrimary "this" .this :=
  ⟨_, spells_word rfl (by decide) (by decide), .this (by decide)⟩

/-- A name stands for itself. -/
theorem written_name (hname : Lexeme.isName text = true) :
    Written IsPrimary text (.name text) := by
  obtain ⟨name, hspells, hkind, rfl⟩ := exists_spells_name hname
  exact ⟨_, hspells, .name hkind⟩

theorem written_new (hname : Lexeme.isName text = true) :
    Written IsPrimary ("new " ++ text ++ "()") (.new text) := by
  obtain ⟨name, hspells, hkind, rfl⟩ := exists_spells_name hname
  have hnew : SpellsClosed "new " [⟨.newWord, "new".toList⟩] :=
    fun rest => .lexeme rfl (.blank rfl (.done rest))
  have hcall : SpellsClosed "()" [openParen, closeParen] :=
    fun rest => .lexeme rfl (.lexeme rfl (.done rest))
  have hall := (hnew.append_spells hspells).append_closed hcall ⟨'(', [')'], rfl, rfl⟩
  exact ⟨_, hall.spells, .new rfl hkind rfl rfl⟩

theorem written_println (hinner : Written IsSum inner exp) :
    Written IsPrimary ("println(" ++ inner ++ ")") (.println exp) := by
  obtain ⟨lexemes, hspells, hexp⟩ := hinner
  have hopen : SpellsClosed "println(" [⟨.printlnWord, "println".toList⟩, openParen] :=
    fun rest => .lexeme rfl (.lexeme rfl (.done rest))
  have hall := (hopen.append_spells hspells).append_closed spells_closeParen ⟨')', [], rfl, rfl⟩
  exact ⟨_, hall.spells, .println rfl rfl hexp rfl⟩

/-- Parentheses make any expression a primary one, and leave no trace in the tree. -/
theorem written_parenthesized (hinner : Written IsSum inner exp) :
    Written IsPrimary ("(" ++ inner ++ ")") exp := by
  obtain ⟨lexemes, hspells, hexp⟩ := hinner
  have hall :=
    (spells_openParen.append_spells hspells).append_closed spells_closeParen ⟨')', [], rfl, rfl⟩
  exact ⟨_, hall.spells, .parenthesized rfl hexp rfl⟩

theorem written_member (hleft : Written IsChain left exp) (hname : Lexeme.isName text = true) :
    Written IsChain (left ++ "." ++ text) (.binary exp .member (.name text)) := by
  obtain ⟨lexemes, hspells, hexp⟩ := hleft
  obtain ⟨name, hnameSpells, hkind, rfl⟩ := exists_spells_name hname
  have hall := (hspells.append_closed spells_period ⟨'.', [], rfl, rfl⟩).append_spells hnameSpells
  rw [List.append_assoc] at hall
  exact ⟨_, hall, .member hexp rfl hkind⟩

/-- A call is a member with arguments after it. -/
theorem written_call {texts : List String} {exps : List Exp} (hleft : Written IsChain left exp)
    (hname : Lexeme.isName text = true) (hexps : WrittenEach IsSum texts exps) :
    Written IsChain (left ++ "." ++ (text ++ "(" ++ Text.commaSeparated texts ++ ")"))
      (.binary exp .member (.call (.name text) exps)) := by
  obtain ⟨lexemes, hspells, hexp⟩ := hleft
  obtain ⟨name, hnameSpells, hkind, rfl⟩ := exists_spells_name hname
  obtain ⟨args, hargsSpell, hargs⟩ :=
    argumentRules.exists_spells hexps [] [] spells_openParen spells_closeParen ⟨')', [], rfl, rfl⟩
  rw [List.nil_append, List.append_nil] at hargsSpell
  have hopens : StartsApart "(" := ⟨'(', [], rfl, rfl⟩
  have hall := (hspells.append_closed spells_period ⟨'.', [], rfl, rfl⟩).append
    (hnameSpells.append_closed hargsSpell ((hopens.append _).append _))
  rw [List.append_assoc] at hall
  simp only [String.append_assoc] at hall ⊢
  exact ⟨_, hall.spells, .call hexp rfl hkind hargs⟩

/-- An operator between two operands that need no parentheses. -/
theorem written_operator {op : Op} (hleft : Written IsChain left leftExp)
    (hop : op ∈ arithmetic) (hright : Written IsChain right rightExp) :
    Written IsSum (left ++ " " ++ op.source ++ " " ++ right) (.binary leftExp op rightExp) := by
  obtain ⟨lexemes, hleftSpells, hleft⟩ := hleft
  obtain ⟨others, hrightSpells, hright⟩ := hright
  -- The sign with its blanks is one piece; which rule applies depends on the sign.
  have hsign : ∃ sign : Lexeme, SpellsClosed (" " ++ op.source ++ " ") [sign] ∧
      IsSum (lexemes ++ sign :: others) (.binary leftExp op rightExp) := by
    simp only [arithmetic, sumOperators, productOperators, List.cons_append, List.nil_append,
      List.map_cons, List.map_nil, List.mem_cons, List.not_mem_nil, or_false] at hop
    rcases hop with rfl | rfl | rfl | rfl
    · exact ⟨⟨.plus, ['+']⟩, fun rest => .blank rfl (.lexeme rfl (.blank rfl (.done rest))),
        .operator (.product (.chain hleft)) (by decide) (.chain hright)⟩
    · exact ⟨⟨.minus, ['-']⟩, fun rest => .blank rfl (.lexeme rfl (.blank rfl (.done rest))),
        .operator (.product (.chain hleft)) (by decide) (.chain hright)⟩
    · exact ⟨⟨.star, ['*']⟩, fun rest => .blank rfl (.lexeme rfl (.blank rfl (.done rest))),
        .product (.operator (.chain hleft) (by decide) hright)⟩
    · exact ⟨⟨.slash, ['/']⟩, fun rest => .blank rfl (.lexeme rfl (.blank rfl (.done rest))),
        .product (.operator (.chain hleft) (by decide) hright)⟩
  obtain ⟨sign, hsignSpells, hexp⟩ := hsign
  have hapart : StartsApart " " := ⟨' ', [], rfl, rfl⟩
  have hall := (hleftSpells.append_closed hsignSpells
    ((hapart.append _).append _)).append_spells hrightSpells
  simp only [String.append_assoc, List.append_assoc] at hall ⊢
  exact ⟨_, hall, hexp⟩

end Expressions

/-! ## Statements -/

theorem spells_space : SpellsClosed " " [] :=
  fun rest => .blank rfl (.done rest)

theorem startsApart_space : StartsApart " " :=
  ⟨' ', [], rfl, rfl⟩

theorem spells_semicolon : SpellsClosed ";" [⟨.semicolon, [';']⟩] :=
  fun rest => .lexeme rfl (.done rest)

def openBrace : Lexeme := ⟨.openBrace, ['\x7b']⟩

def closeBrace : Lexeme := ⟨.closeBrace, ['\x7d']⟩

theorem spells_openBrace : SpellsClosed "\x7b" [openBrace] :=
  fun rest => .lexeme rfl (.done rest)

theorem spells_closeBrace : SpellsClosed "\x7d" [closeBrace] :=
  fun rest => .lexeme rfl (.done rest)

theorem spells_emptyBraces : SpellsClosed "\x7b\x7d" [openBrace, closeBrace] :=
  spells_openBrace.append spells_closeBrace

section Statements

variable {text inner left right : String} {exp cond value : Exp} {stmt body yes no : Stmt}

/-- A space keeps a type and a name apart. -/
theorem written_typedName {type : String} {ty : Ty} {lexeme : Lexeme}
    (hspells : Spells type [lexeme]) (htype : IsType lexeme ty)
    (hname : Lexeme.isName text = true) :
    Written IsTypedName (type ++ " " ++ text) ⟨ty, text⟩ := by
  obtain ⟨name, hnameSpells, hkind, rfl⟩ := exists_spells_name hname
  have hall := (hspells.append_closed spells_space startsApart_space).append_spells hnameSpells
  exact ⟨_, hall, .intro htype hkind⟩

theorem written_declaration {dec : VarDec} (hdec : Written IsTypedName text dec) :
    Written IsDeclaration (text ++ ";") dec := by
  obtain ⟨lexemes, hspells, hdec⟩ := hdec
  have hall := hspells.append_closed spells_semicolon ⟨';', [], rfl, rfl⟩
  exact ⟨_, hall.spells, .intro hdec rfl⟩

theorem written_declare {dec : VarDec} (hdec : Written IsDeclaration text dec) :
    Written IsStmt text (.declare dec) := by
  obtain ⟨lexemes, hspells, hdec⟩ := hdec
  exact ⟨lexemes, hspells, .declare hdec⟩

/-- An assignment needs a left side that can be assigned to. -/
theorem written_assign (hleft : Written IsSum left exp) (htarget : IsTarget exp)
    (hright : Written IsSum right value) :
    Written IsStmt (left ++ " = " ++ right ++ ";") (.assign exp value) := by
  obtain ⟨lexemes, hleftSpells, hleft⟩ := hleft
  obtain ⟨others, hrightSpells, hright⟩ := hright
  have hsign : SpellsClosed " = " [⟨.equals, ['=']⟩] :=
    fun rest => .blank rfl (.lexeme rfl (.blank rfl (.done rest)))
  have hall := ((hleftSpells.append_closed hsign ⟨' ', ['=', ' '], rfl, rfl⟩).append_spells
    hrightSpells).append_closed spells_semicolon ⟨';', [], rfl, rfl⟩
  rw [List.append_assoc lexemes] at hall
  exact ⟨_, hall.spells, .assign hleft htarget rfl hright rfl⟩

theorem written_expression (hexp : Written IsSum text exp) :
    Written IsStmt (text ++ ";") (.expression exp) := by
  obtain ⟨lexemes, hspells, hexp⟩ := hexp
  have hall := hspells.append_closed spells_semicolon ⟨';', [], rfl, rfl⟩
  exact ⟨_, hall.spells, .expression hexp rfl⟩

theorem written_breakLoop : Written IsStmt "break;" .breakLoop :=
  ⟨[⟨.breakWord, "break".toList⟩, ⟨.semicolon, [';']⟩],
    fun rest _ => .lexeme rfl (.lexeme rfl (.done rest)), .breakLoop rfl rfl⟩

theorem written_returnNone : Written IsStmt "return;" .returnNone :=
  ⟨[⟨.returnWord, "return".toList⟩, ⟨.semicolon, [';']⟩],
    fun rest _ => .lexeme rfl (.lexeme rfl (.done rest)), .returnNone rfl rfl⟩

theorem written_returnValue (hvalue : Written IsSum text value) :
    Written IsStmt ("return " ++ text ++ ";") (.returnValue value) := by
  obtain ⟨lexemes, hspells, hvalue⟩ := hvalue
  have hword : SpellsClosed "return " [⟨.returnWord, "return".toList⟩] :=
    fun rest => .lexeme rfl (.blank rfl (.done rest))
  have hall := (hword.append_spells hspells).append_closed spells_semicolon ⟨';', [], rfl, rfl⟩
  exact ⟨_, hall.spells, .returnValue rfl hvalue rfl⟩

/-- The head of a loop or a branch with the blank behind it. -/
theorem written_head {opening : String} {word : Lexeme} {kind : Kind} (hword : word.kind = kind)
    (hopen : SpellsClosed opening [word, openParen]) (hcond : Written IsSum text cond) :
    ∃ lexemes, SpellsClosed (opening ++ text ++ ") ") lexemes ∧ IsHead kind lexemes cond := by
  obtain ⟨lexemes, hspells, hcond⟩ := hcond
  have hclose : SpellsClosed ") " [closeParen] :=
    fun rest => .lexeme rfl (.blank rfl (.done rest))
  have hall := (hopen.append_spells hspells).append_closed hclose ⟨')', [' '], rfl, rfl⟩
  exact ⟨_, hall, .intro hword rfl hcond rfl⟩

/-- The body of a loop is one statement after the head. -/
theorem written_whileLoop (hcond : Written IsSum inner cond) (hbody : Written IsStmt text body) :
    Written IsStmt ("while (" ++ inner ++ ") " ++ text) (.whileLoop cond body) := by
  have hopen : SpellsClosed "while (" [⟨.whileWord, "while".toList⟩, openParen] :=
    fun rest => .lexeme rfl (.blank rfl (.lexeme rfl (.done rest)))
  obtain ⟨head, hheadSpells, hhead⟩ := written_head rfl hopen hcond
  obtain ⟨lexemes, hspells, hbody⟩ := hbody
  exact ⟨_, hheadSpells.append_spells hspells, .whileLoop hhead hbody⟩

theorem spells_if : SpellsClosed "if (" [⟨.ifWord, "if".toList⟩, openParen] :=
  fun rest => .lexeme rfl (.blank rfl (.lexeme rfl (.done rest)))

theorem written_ifThen (hcond : Written IsSum inner cond) (hyes : Written IsStmt text yes) :
    Written IsStmt ("if (" ++ inner ++ ") " ++ text) (.ifThen cond yes) := by
  obtain ⟨head, hheadSpells, hhead⟩ := written_head rfl spells_if hcond
  obtain ⟨lexemes, hspells, hyes⟩ := hyes
  exact ⟨_, hheadSpells.append_spells hspells, .ifThen hhead hyes⟩

/-- The branch before an `else` must not end in an open one, or it would take the `else`
for itself. -/
theorem written_ifElse (hcond : Written IsSum inner cond) (hyes : Written IsStmt left yes)
    (hclosed : yes.endsOpen = false) (hno : Written IsStmt right no) :
    Written IsStmt ("if (" ++ inner ++ ") " ++ left ++ " else " ++ right)
      (.ifElse cond yes no) := by
  obtain ⟨head, hheadSpells, hhead⟩ := written_head rfl spells_if hcond
  obtain ⟨lexemes, hleftSpells, hyes⟩ := hyes
  obtain ⟨others, hrightSpells, hno⟩ := hno
  have helse : SpellsClosed " else " [⟨.elseWord, "else".toList⟩] :=
    fun rest => .blank rfl (.lexeme rfl (.blank rfl (.done rest)))
  have hall := ((hheadSpells.append_spells hleftSpells).append_closed helse
    ⟨' ', "else ".toList, rfl, rfl⟩).append_spells hrightSpells
  rw [List.append_assoc (head ++ lexemes)] at hall
  exact ⟨_, hall, .ifElse hhead hyes hclosed rfl hno⟩

end Statements

/-- The call of the base, with its arguments. -/
theorem written_superCall {texts : List String} {args : List Exp}
    (hargs : WrittenEach IsSum texts args) :
    Written IsSuperCall ("super(" ++ Text.commaSeparated texts ++ ");") (some args) := by
  have hsuper : SpellsClosed "super(" [⟨.superWord, "super".toList⟩, openParen] :=
    fun rest => .lexeme rfl (.lexeme rfl (.done rest))
  have hclose : SpellsClosed ");" [closeParen, ⟨.semicolon, [';']⟩] :=
    fun rest => .lexeme rfl (.lexeme rfl (.done rest))
  obtain ⟨lexemes, hspells, hargs⟩ := argumentRules.exists_spells hargs
    [⟨.superWord, "super".toList⟩] [⟨.semicolon, [';']⟩] hsuper hclose ⟨')', [';'], rfl, rfl⟩
  exact ⟨_, hspells.spells, .some rfl hargs rfl⟩

end ClassLang
