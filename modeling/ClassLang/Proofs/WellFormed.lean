import ClassLang.Proofs.Recognition

/-!
# Well-formed trees

Not every tree can be written down: names must be names, literals must fit, a
call stands only behind a receiver, and no `else` may be taken over by an `if`
nearer to it.  This module says which trees are well formed, without mention of
a text, and shows that the grammar derives no others.
-/

namespace ClassLang

open Grammar

instance (exp : Exp) : Decidable (IsTarget exp) :=
  decidable_of_iff _ Parser.isAssignable_iff_isTarget

def Ty.isWellFormed : Ty → Bool
  | .missing => false
  | .int | .bool | .void => true
  | .named className => Lexeme.isName className

mutual

def Exp.isWellFormed : Exp → Bool
  | .missing => false
  | .int value => 0 ≤ value && value < Text.signedLimit
  | .bool _ => true
  | .this => true
  | .name text => Lexeme.isName text
  | .println value => value.isWellFormed
  | .new className => Lexeme.isName className
  | .call _ _ => false
  | .binary left .member right => left.isWellFormed && right.isMember
  | .binary left op right => op != .missing && left.isWellFormed && right.isWellFormed

/-- What can stand behind the period of a member access: a name, or a call of a
method by its name. -/
def Exp.isMember : Exp → Bool
  | .name text => Lexeme.isName text
  | .call (.name text) args => Lexeme.isName text && Exp.allWellFormed args
  | _ => false

def Exp.allWellFormed : List Exp → Bool
  | [] => true
  | exp :: exps => exp.isWellFormed && Exp.allWellFormed exps

end

def VarDec.isWellFormed (dec : VarDec) : Bool :=
  dec.type.isWellFormed && Lexeme.isName dec.name

mutual

def Stmt.isWellFormed : Stmt → Bool
  | .missing => false
  | .declare dec => dec.isWellFormed
  | .assign target value => decide (IsTarget target) && target.isWellFormed && value.isWellFormed
  | .expression exp => exp.isWellFormed
  | .whileLoop cond body => cond.isWellFormed && body.isWellFormed
  | .breakLoop => true
  | .returnNone => true
  | .returnValue value => value.isWellFormed
  | .ifThen cond yes => cond.isWellFormed && yes.isWellFormed
  | .ifElse cond yes no =>
    cond.isWellFormed && yes.isWellFormed && !yes.endsOpen && no.isWellFormed
  | .block stmts => Stmt.allWellFormed stmts

def Stmt.allWellFormed : List Stmt → Bool
  | [] => true
  | stmt :: stmts => stmt.isWellFormed && Stmt.allWellFormed stmts

end

/-- A constructor of a class with the given base.  Only a class with a base can
call its constructor, and only a call has arguments. -/
def Constructor.isWellFormed (base : Option String) (init : Constructor) : Bool :=
  init.params.all VarDec.isWellFormed && (!init.callsSuper || base.isSome)
    && (init.callsSuper || init.superArgs.isEmpty) && Exp.allWellFormed init.superArgs
    && Stmt.allWellFormed init.body

def Method.isWellFormed (method : Method) : Bool :=
  Lexeme.isName method.name && method.returnType.isWellFormed
    && method.params.all VarDec.isWellFormed && Stmt.allWellFormed method.body

def ClassDef.isWellFormed (classDef : ClassDef) : Bool :=
  Lexeme.isName classDef.name && classDef.base.all Lexeme.isName
    && classDef.fields.all VarDec.isWellFormed && classDef.init.isWellFormed classDef.base
    && classDef.methods.all Method.isWellFormed

def Program.isWellFormed (program : Program) : Bool :=
  program.classes.all ClassDef.isWellFormed && !program.stmts.isEmpty
    && Stmt.allWellFormed program.stmts

theorem ClassDef.isWellFormed_of_mem {program : Program} {classDef : ClassDef}
    (hwell : program.isWellFormed = true) (hmem : classDef ∈ program.classes) :
    classDef.isWellFormed = true := by
  simp only [Program.isWellFormed, Bool.and_eq_true, List.all_eq_true] at hwell
  exact hwell.1.1 classDef hmem

/-- An operation is well-formed if its sides are. -/
theorem Exp.isWellFormed_arithmetic {left right : Exp} {op : Op} (hop : op ∈ arithmetic) :
    (Exp.binary left op right).isWellFormed = (left.isWellFormed && right.isWellFormed) := by
  cases op with
  | missing | member => exact absurd hop (by decide)
  | plus | minus | times | divide =>
    rw [Exp.isWellFormed]
    · rfl
    · exact Op.noConfusion

theorem Exp.mem_arithmetic_of_isWellFormed {left right : Exp} {op : Op} (hmember : op ≠ .member)
    (hwell : (Exp.binary left op right).isWellFormed = true) : op ∈ arithmetic := by
  cases op with
  | missing => cases hwell
  | member => exact absurd rfl hmember
  | plus | minus | times | divide => decide

/-- Only a name or a call can be selected from an expression. -/
theorem Exp.isWellFormed_member {left right : Exp} :
    (Exp.binary left .member right).isWellFormed = (left.isWellFormed && right.isMember) := by
  rw [Exp.isWellFormed]

namespace Grammar

/-! ## Derived trees are well formed -/

mutual

/-- The grammar makes only well-formed expressions of proper lexemes. -/
theorem IsSum.isWellFormed : ∀ {lexemes : List Lexeme} {exp : Exp}, IsSum lexemes exp →
    (∀ lexeme ∈ lexemes, lexeme.Proper) → exp.isWellFormed = true
  | _, _, .product hexp => hexp.isWellFormed
  | _, _, .operator hleft hop hright => by
    intro hproper
    simp only [List.forall_mem_append, List.forall_mem_cons] at hproper
    have hmem := List.mem_map_of_mem (f := Prod.snd) (List.mem_append_left productOperators hop)
    rw [Exp.isWellFormed_arithmetic hmem, hleft.isWellFormed hproper.1,
      hright.isWellFormed hproper.2.2, Bool.and_self]

theorem IsProduct.isWellFormed : ∀ {lexemes : List Lexeme} {exp : Exp}, IsProduct lexemes exp →
    (∀ lexeme ∈ lexemes, lexeme.Proper) → exp.isWellFormed = true
  | _, _, .chain hexp => hexp.isWellFormed
  | _, _, .operator hleft hop hright => by
    intro hproper
    simp only [List.forall_mem_append, List.forall_mem_cons] at hproper
    have hmem := List.mem_map_of_mem (f := Prod.snd) (List.mem_append_right sumOperators hop)
    rw [Exp.isWellFormed_arithmetic hmem, hleft.isWellFormed hproper.1,
      hright.isWellFormed hproper.2.2, Bool.and_self]

theorem IsChain.isWellFormed : ∀ {lexemes : List Lexeme} {exp : Exp}, IsChain lexemes exp →
    (∀ lexeme ∈ lexemes, lexeme.Proper) → exp.isWellFormed = true
  | _, _, .primary hexp => hexp.isWellFormed
  | _, _, .member hreceiver _ hname => by
    intro hproper
    simp only [List.forall_mem_append, List.forall_mem_cons] at hproper
    rw [Exp.isWellFormed_member, hreceiver.isWellFormed hproper.1, Exp.isMember,
      hproper.2.2.1.name hname, Bool.and_self]
  | _, _, .call hreceiver _ hname hargs => by
    intro hproper
    simp only [List.forall_mem_append, List.forall_mem_cons] at hproper
    rw [Exp.isWellFormed_member, hreceiver.isWellFormed hproper.1, Exp.isMember,
      hproper.2.2.1.name hname, hargs.allWellFormed hproper.2.2.2, Bool.and_self, Bool.and_self]

theorem IsPrimary.isWellFormed : ∀ {lexemes : List Lexeme} {exp : Exp}, IsPrimary lexemes exp →
    (∀ lexeme ∈ lexemes, lexeme.Proper) → exp.isWellFormed = true
  | _, _, .int _ _ hvalue => by
    intro _
    simp only [Exp.isWellFormed, Bool.and_eq_true, decide_eq_true_eq]
    omega
  | _, _, .trueWord _ => fun _ => rfl
  | _, _, .falseWord _ => fun _ => rfl
  | _, _, .this _ => fun _ => rfl
  | _, _, .name hname => by
    intro hproper
    exact (hproper _ (by simp)).name hname
  | _, _, .new _ hname _ _ => by
    intro hproper
    exact (hproper _ (by simp)).name hname
  | _, _, .parenthesized _ hexp _ => by
    intro hproper
    simp only [List.forall_mem_append, List.forall_mem_cons, List.cons_append] at hproper
    exact hexp.isWellFormed hproper.2.1
  | _, _, .println _ _ hexp _ => by
    intro hproper
    simp only [List.forall_mem_append, List.forall_mem_cons, List.cons_append] at hproper
    exact hexp.isWellFormed hproper.2.2.1

theorem IsArguments.allWellFormed : ∀ {lexemes : List Lexeme} {exps : List Exp},
    IsArguments lexemes exps → (∀ lexeme ∈ lexemes, lexeme.Proper) →
    Exp.allWellFormed exps = true
  | _, _, .none _ _ => fun _ => rfl
  | _, _, .some _ hexps _ => by
    intro hproper
    simp only [List.forall_mem_append, List.forall_mem_cons, List.cons_append] at hproper
    exact hexps.allWellFormed hproper.2.1

theorem IsArgumentList.allWellFormed : ∀ {lexemes : List Lexeme} {exps : List Exp},
    IsArgumentList lexemes exps → (∀ lexeme ∈ lexemes, lexeme.Proper) →
    Exp.allWellFormed exps = true
  | _, _, .last hexp => by
    intro hproper
    rw [Exp.allWellFormed, hexp.isWellFormed hproper, Exp.allWellFormed, Bool.and_self]
  | _, _, .cons hexp _ hexps => by
    intro hproper
    simp only [List.forall_mem_append, List.forall_mem_cons] at hproper
    rw [Exp.allWellFormed, hexp.isWellFormed hproper.1, hexps.allWellFormed hproper.2.2,
      Bool.and_self]

end

theorem IsType.isWellFormed {lexeme : Lexeme} {ty : Ty} (htype : IsType lexeme ty)
    (hproper : lexeme.Proper) : ty.isWellFormed = true := by
  cases htype with
  | int | bool | void => rfl
  | named hname => exact hproper.name hname

theorem IsTypedName.isWellFormed {lexemes : List Lexeme} {dec : VarDec}
    (hdec : IsTypedName lexemes dec) (hproper : ∀ lexeme ∈ lexemes, lexeme.Proper) :
    dec.isWellFormed = true := by
  obtain ⟨htype, hname⟩ := hdec
  simp only [List.forall_mem_cons] at hproper
  rw [VarDec.isWellFormed, htype.isWellFormed hproper.1, hproper.2.1.name hname, Bool.and_self]

theorem IsDeclaration.isWellFormed {lexemes : List Lexeme} {dec : VarDec}
    (hdec : IsDeclaration lexemes dec) (hproper : ∀ lexeme ∈ lexemes, lexeme.Proper) :
    dec.isWellFormed = true := by
  obtain ⟨hdec, _⟩ := hdec
  rw [List.forall_mem_append] at hproper
  exact hdec.isWellFormed hproper.1

theorem IsHead.isWellFormed {kind : Kind} {lexemes : List Lexeme} {cond : Exp}
    (hhead : IsHead kind lexemes cond) (hproper : ∀ lexeme ∈ lexemes, lexeme.Proper) :
    cond.isWellFormed = true := by
  obtain ⟨_, _, hcond, _⟩ := hhead
  simp only [List.forall_mem_append, List.forall_mem_cons, List.cons_append] at hproper
  exact hcond.isWellFormed hproper.2.2.1

mutual

/-- The grammar makes only well-formed statements. -/
theorem IsStmt.isWellFormed : ∀ {lexemes : List Lexeme} {stmt : Stmt}, IsStmt lexemes stmt →
    (∀ lexeme ∈ lexemes, lexeme.Proper) → stmt.isWellFormed = true
  | _, _, .declare hdec => hdec.isWellFormed
  | _, _, .expression hexp _ => by
    intro hproper
    rw [List.forall_mem_append] at hproper
    exact hexp.isWellFormed hproper.1
  | _, _, .assign hleft htarget _ hright _ => by
    intro hproper
    simp only [List.forall_mem_append, List.forall_mem_cons] at hproper
    rw [Stmt.isWellFormed, decide_eq_true htarget, hleft.isWellFormed hproper.1.1,
      hright.isWellFormed hproper.1.2.2, Bool.and_self, Bool.and_self]
  | _, _, .breakLoop _ _ => fun _ => rfl
  | _, _, .returnNone _ _ => fun _ => rfl
  | _, _, .returnValue _ hvalue _ => by
    intro hproper
    simp only [List.forall_mem_append, List.forall_mem_cons, List.cons_append] at hproper
    exact hvalue.isWellFormed hproper.2.1
  | _, _, .block _ hstmts _ => by
    intro hproper
    simp only [List.forall_mem_append, List.forall_mem_cons, List.cons_append] at hproper
    exact hstmts.allWellFormed hproper.2.1
  | _, _, .whileLoop hhead hbody => by
    intro hproper
    rw [List.forall_mem_append] at hproper
    rw [Stmt.isWellFormed, hhead.isWellFormed hproper.1, hbody.isWellFormed hproper.2,
      Bool.and_self]
  | _, _, .ifThen hhead hyes => by
    intro hproper
    rw [List.forall_mem_append] at hproper
    rw [Stmt.isWellFormed, hhead.isWellFormed hproper.1, hyes.isWellFormed hproper.2,
      Bool.and_self]
  | _, _, .ifElse hhead hyes hclosed _ hno => by
    intro hproper
    simp only [List.forall_mem_append, List.forall_mem_cons] at hproper
    rw [Stmt.isWellFormed, hhead.isWellFormed hproper.1.1, hyes.isWellFormed hproper.1.2,
      hclosed, hno.isWellFormed hproper.2.2]
    rfl

theorem IsStmts.allWellFormed : ∀ {lexemes : List Lexeme} {stmts : List Stmt},
    IsStmts lexemes stmts → (∀ lexeme ∈ lexemes, lexeme.Proper) →
    Stmt.allWellFormed stmts = true
  | _, _, .nil => fun _ => rfl
  | _, _, .cons hstmt hstmts => by
    intro hproper
    rw [List.forall_mem_append] at hproper
    rw [Stmt.allWellFormed, hstmt.isWellFormed hproper.1, hstmts.allWellFormed hproper.2,
      Bool.and_self]

end

/-- What holds of every item holds of a sequence. -/
theorem IsSequence.all {α : Type} {IsItem : List Lexeme → α → Prop} {check : α → Bool}
    {lexemes : List Lexeme} {items : List α} (hitems : IsSequence IsItem lexemes items)
    (hitem : ∀ lexemes item, IsItem lexemes item → (∀ lexeme ∈ lexemes, lexeme.Proper) →
      check item = true)
    (hproper : ∀ lexeme ∈ lexemes, lexeme.Proper) : items.all check = true := by
  induction hitems with
  | nil => rfl
  | cons hfirst _ ih =>
    rw [List.forall_mem_append] at hproper
    rw [List.all_cons, hitem _ _ hfirst hproper.1, ih hproper.2, Bool.and_self]

theorem IsParameterList.all {lexemes : List Lexeme} {params : List VarDec}
    (hparams : IsParameterList lexemes params)
    (hproper : ∀ lexeme ∈ lexemes, lexeme.Proper) :
    params.all VarDec.isWellFormed = true := by
  induction hparams with
  | last hparam => rw [List.all_cons, hparam.isWellFormed hproper, List.all_nil, Bool.and_self]
  | cons hparam _ _ ih =>
    simp only [List.forall_mem_append, List.forall_mem_cons] at hproper
    rw [List.all_cons, hparam.isWellFormed hproper.1, ih hproper.2.2, Bool.and_self]

theorem IsParameters.all {lexemes : List Lexeme} {params : List VarDec}
    (hparams : IsParameters lexemes params) (hproper : ∀ lexeme ∈ lexemes, lexeme.Proper) :
    params.all VarDec.isWellFormed = true := by
  cases hparams with
  | none => rfl
  | some _ hlist _ =>
    simp only [List.forall_mem_append, List.forall_mem_cons, List.cons_append] at hproper
    exact hlist.all hproper.2.1

theorem IsSuperCall.allWellFormed {lexemes : List Lexeme} {call : Option (List Exp)}
    (hcall : IsSuperCall lexemes call) (hproper : ∀ lexeme ∈ lexemes, lexeme.Proper) :
    Exp.allWellFormed (call.getD []) = true := by
  cases hcall with
  | none => rfl
  | some _ hargs _ =>
    simp only [List.forall_mem_append, List.forall_mem_cons, List.cons_append] at hproper
    exact hargs.allWellFormed hproper.2.1

/-- A constructor calls the base only if there is one. -/
theorem IsConstructor.isWellFormed {base : Option String} {lexemes : List Lexeme}
    {init : Constructor} (hinit : IsConstructor base lexemes init)
    (hproper : ∀ lexeme ∈ lexemes, lexeme.Proper) : init.isWellFormed base = true := by
  obtain ⟨_, hparams, _, hcall, hbase, hbody, _⟩ := hinit
  simp only [List.forall_mem_append, List.forall_mem_cons, List.cons_append] at hproper
  obtain ⟨-, ⟨⟨hhead, -, hstart⟩, hinner⟩, -⟩ := hproper
  simp only [Constructor.isWellFormed, hparams.all hhead, hcall.allWellFormed hstart,
    hbody.allWellFormed hinner, Bool.true_and, Bool.and_true]
  cases hcall with
  | none => rfl
  | some _ _ _ => rw [hbase rfl]; rfl

theorem IsMethod.isWellFormed {lexemes : List Lexeme} {method : Method}
    (hmethod : IsMethod lexemes method) (hproper : ∀ lexeme ∈ lexemes, lexeme.Proper) :
    method.isWellFormed = true := by
  obtain ⟨_, hname, hparams, htype, _, hbody, _⟩ := hmethod
  simp only [List.forall_mem_append, List.forall_mem_cons, List.cons_append] at hproper
  obtain ⟨-, hproperName, ⟨hhead, hreturn, -, hinner⟩, -⟩ := hproper
  simp only [Method.isWellFormed, hproperName.name hname, htype.isWellFormed hreturn,
    hparams.all hhead, hbody.allWellFormed hinner, Bool.and_self]

/-- The base of a class has a name. -/
theorem IsExtends.all {lexemes : List Lexeme} {base : Option String}
    (hextends : IsExtends lexemes base) (hproper : ∀ lexeme ∈ lexemes, lexeme.Proper) :
    base.all Lexeme.isName = true := by
  cases hextends with
  | none => rfl
  | some _ hname =>
    simp only [List.forall_mem_cons] at hproper
    exact hproper.2.1.name hname

theorem IsClass.isWellFormed {lexemes : List Lexeme} {classDef : ClassDef}
    (hclass : IsClass lexemes classDef) (hproper : ∀ lexeme ∈ lexemes, lexeme.Proper) :
    classDef.isWellFormed = true := by
  obtain ⟨_, hname, hextends, _, hfields, hinit, hmethods, _⟩ := hclass
  simp only [List.forall_mem_append, List.forall_mem_cons, List.cons_append] at hproper
  obtain ⟨-, hproperName, ⟨⟨⟨hextending, -, hdeclarations⟩, hconstructing⟩, hdefining⟩, -⟩ :=
    hproper
  simp only [ClassDef.isWellFormed, hproperName.name hname, hextends.all hextending,
    hfields.all (fun _ _ => IsDeclaration.isWellFormed) hdeclarations,
    hinit.isWellFormed hconstructing, hmethods.all (fun _ _ => IsMethod.isWellFormed) hdefining,
    Bool.and_self]

/-- The grammar makes only well-formed programs of proper lexemes. -/
theorem IsProgram.isWellFormed {lexemes : List Lexeme} {program : Program}
    (hprogram : IsProgram lexemes program) (hproper : ∀ lexeme ∈ lexemes, lexeme.Proper) :
    program.isWellFormed = true := by
  obtain ⟨hclasses, hstmt, hstmts⟩ := hprogram
  simp only [List.forall_mem_append] at hproper
  obtain ⟨⟨hdefining, hfirst⟩, hothers⟩ := hproper
  simp only [Program.isWellFormed, hclasses.all (fun _ _ => IsClass.isWellFormed) hdefining,
    Stmt.allWellFormed, hstmt.isWellFormed hfirst, hstmts.allWellFormed hothers,
    List.isEmpty_cons, Bool.not_false, Bool.and_self]

end Grammar

end ClassLang
