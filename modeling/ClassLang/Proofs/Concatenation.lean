import ClassLang.Build.Unit
import ClassLang.Proofs.LongestMatch
import ClassLang.Proofs.ScriptReading

/-!
# Sources in one file

Two sources can be put into one file, one below the other, when the second has
no classes: its statements go on where those of the first stop, in the program
and in the script.  A class of the second source would stand behind statements,
where no class can be.
-/

namespace ClassLang

open Grammar

/-! ## Scanning -/

/-- A lexeme does not change when more text comes behind a blank. -/
theorem Lexeme.next?_append_blank {text after : List Char} {lexeme : Lexeme} {c : Char}
    (hnext : next? text = some (lexeme, after)) (hblank : Text.isBlank c = true)
    (rest : List Char) : next? (text ++ c :: rest) = some (lexeme, after ++ c :: rest) := by
  obtain ⟨rfl, hkind, hends⟩ := next?_eq_some_iff.mp hnext
  refine next?_eq_some_iff.mpr ⟨(List.append_assoc _ _ _).symm, hkind, ?_⟩
  cases after with
  | nil =>
    intro d hd
    cases hd
    exact goesOn_eq_false_of_isBlank hblank lexeme.kind
  | cons d after => exact hends

/-- A blank after a text changes none of its lexemes, wherever the scan stops. -/
theorem Scans.append_blank {text stop : List Char} {lexemes : List Lexeme} {c : Char}
    (hscans : Scans text lexemes stop) (hblank : Text.isBlank c = true) (rest : List Char) :
    Scans (text ++ c :: rest) lexemes (stop ++ c :: rest) := by
  induction hscans with
  | done => exact .done _
  | blank hfirst _ ih => exact .blank hfirst ih
  | lexeme hnext _ ih => exact .lexeme (Lexeme.next?_append_blank hnext hblank rest) ih

/-- A line break between two texts keeps their lexemes apart. -/
theorem scans_concatenated {left right : String} {first last : List Lexeme}
    (hleft : Scans left.toList first []) (hright : Scans right.toList last []) :
    Scans (left ++ "\n" ++ right).toList (first ++ last) [] := by
  have htext : (left ++ "\n" ++ right).toList = left.toList ++ '\n' :: right.toList := by simp
  rw [htext]
  exact (hleft.append_blank rfl right.toList).append (.blank rfl hright)

/-! ## Parsing -/

namespace Grammar

theorem IsSequence.append {α : Type} {IsItem : List Lexeme → α → Prop}
    {first last : List Lexeme} {items more : List α} (hfirst : IsSequence IsItem first items)
    (hlast : IsSequence IsItem last more) : IsSequence IsItem (first ++ last) (items ++ more) := by
  induction hfirst with
  | nil => exact hlast
  | cons hitem _ ih =>
    rw [List.append_assoc]
    exact .cons hitem ih

/-- Statements may follow a program, and classes may not. -/
theorem IsProgram.append {first last : List Lexeme} {left right : Program}
    (hleft : IsProgram first left) (hright : IsProgram last right) (hclasses : right.classes = []) :
    IsProgram (first ++ last) ⟨left.classes, left.stmts ++ right.stmts⟩ := by
  obtain ⟨hdefining, hstmt, hstmts⟩ := hleft
  obtain ⟨hnone, hnext, hothers⟩ := hright
  cases hclasses
  cases hnone
  rw [List.append_assoc]
  exact .intro hdefining hstmt
    (isStmts_of_isSequence (hstmts.isSequence.append (.cons hnext hothers.isSequence)))

theorem IsProgram.starts_of_classes {lexemes : List Lexeme} {program : Program}
    (hprogram : IsProgram lexemes program) (hclasses : program.classes ≠ []) :
    StartsWith [.classWord] lexemes := by
  obtain ⟨hdefining, _, _⟩ := hprogram
  cases hdefining with
  | nil => exact absurd rfl hclasses
  | cons hclass _ =>
    obtain ⟨hword, _, _, _, _, _, _, _⟩ := hclass
    exact ⟨_, _, rfl, List.mem_singleton.mpr hword⟩

end Grammar

/-- No class can stand behind a program. -/
theorem Parser.program_ne_ok_of_class {stop : Span} {used rest : List Token} {program : Program}
    (hprogram : IsProgram (used.map Token.toLexeme) program) (hproper : AllProper (used ++ rest))
    (hpeek : peek rest = .classWord) (read : Program × List Token) :
    Parsed.outcome (Parser.program stop (used ++ rest)) ≠ .ok read := by
  intro heq
  rw [program_append hprogram rfl hproper.append_left (by rw [hpeek]; decide)] at heq
  obtain ⟨⟨others, after⟩, hothers, -⟩ := bind_eq_ok heq
  obtain ⟨⟨stmts, rfl, hstmts⟩, hend⟩ := reads_finalStatements hproper.append_right hothers
  exact hstmts.peek_ne rfl (by decide) (by rw [hend]; decide) hpeek

/-- A class after a program is an error. -/
theorem Program.exists_error_of_class {text rest : List Char} {tokens : List Token}
    {first last : List Lexeme} {program : Program} (hscans : Scans text (first ++ last) rest)
    (henclose : Token.Enclose tokens (first ++ last)) (hprogram : IsProgram first program)
    (hclass : StartsWith [.classWord] last) : ∃ error, Program.ofTokens tokens = .error error := by
  have hproper := henclose.allProper hscans.proper
  obtain ⟨body, stop, rfl, -, hbody⟩ := henclose
  obtain ⟨used, more, rfl, rfl, rfl⟩ := List.map_eq_append_iff.mp hbody
  cases hread : Program.ofTokens (used ++ more ++ [stop]) with
  | error error => exact ⟨error, rfl⟩
  | ok read =>
    rw [List.append_assoc] at hread hproper
    obtain ⟨after, houtcome⟩ := Program.ofTokens_eq_ok.mp hread
    have hpeek := List.mem_singleton.mp (hclass.peek_mem [stop])
    exact absurd houtcome (Parser.program_ne_ok_of_class hprogram hproper hpeek _)

/-! ## Scripts -/

section Existence

variable {α β ε : Type}

theorem exists_bind_eq_ok {first : Except ε α} {next : α → Except ε β}
    (hfirst : ∃ value, first = .ok value) (hnext : ∀ value, ∃ result, next value = .ok result) :
    ∃ result, (first >>= next) = .ok result := by
  obtain ⟨value, rfl⟩ := hfirst
  exact hnext value

/-- A list succeeds if every item does, and its values have what theirs have. -/
theorem exists_mapM_eq_ok_forall {f : α → Except ε β} {items : List α} {holds : β → Prop}
    (hitems : ∀ item ∈ items, ∃ value, f item = .ok value ∧ holds value) :
    ∃ values, items.mapM f = .ok values ∧ ∀ value ∈ values, holds value := by
  induction items with
  | nil => exact ⟨[], rfl, by simp⟩
  | cons item items ih =>
    rw [List.forall_mem_cons] at hitems
    obtain ⟨value, hvalue, hholds⟩ := hitems.1
    obtain ⟨values, hvalues, hothers⟩ := ih hitems.2
    refine ⟨value :: values, ?_, List.forall_mem_cons.mpr ⟨hholds, hothers⟩⟩
    rw [List.mapM_cons, hvalue, hvalues]
    rfl

theorem exists_mapM_eq_ok {f : α → Except ε β} {items : List α}
    (hitems : ∀ item ∈ items, ∃ value, f item = .ok value) :
    ∃ values, items.mapM f = .ok values := by
  obtain ⟨values, heq, -⟩ := exists_mapM_eq_ok_forall fun item hmem =>
    (hitems item hmem).imp fun _ hvalue => ⟨hvalue, trivial⟩
  exact ⟨values, heq⟩

end Existence

theorem Stmt.exists_scripts_eq_ok {stmts : List Stmt} (hwell : Stmt.allWellFormed stmts = true)
    (depth : Nat) : ∃ scripts, Stmt.scripts depth stmts = .ok scripts := by
  obtain ⟨scripts, heq, -⟩ := Stmt.exists_scripts depth stmts hwell
  exact ⟨scripts, heq⟩

theorem ClassDef.exists_script {classDef : ClassDef} (hwell : classDef.isWellFormed = true)
    (target : Target) : ∃ script, classDef.script target = .ok script := by
  simp only [ClassDef.isWellFormed, Constructor.isWellFormed, Bool.and_eq_true,
    List.all_eq_true] at hwell
  obtain ⟨⟨-, ⟨-, hargsWell⟩, hbodyWell⟩, hmethodsWell⟩ := hwell
  have hsuper : ∃ scripts, classDef.init.superScripts = .ok scripts := by
    rw [Constructor.superScripts]
    split
    · obtain ⟨scripts, heq, -⟩ := Exp.exists_scripts _ hargsWell
      exact ⟨scripts, heq⟩
    · exact ⟨[], rfl⟩
  have hinit : ∀ depth, ∃ lines, classDef.initLines depth = .ok lines := fun depth =>
    exists_bind_eq_ok (Stmt.exists_scripts_eq_ok hbodyWell depth) fun _ => ⟨_, rfl⟩
  have hmethod : ∀ method ∈ classDef.methods, ∀ depth,
      ∃ scripts, Stmt.scripts depth method.body = .ok scripts := by
    intro method hmem depth
    have hmethodWell := hmethodsWell method hmem
    rw [Method.isWellFormed, Bool.and_eq_true] at hmethodWell
    exact Stmt.exists_scripts_eq_ok hmethodWell.2 depth
  cases target with
  | es5 =>
    refine exists_bind_eq_ok hsuper fun _ => exists_bind_eq_ok (hinit 1) fun _ =>
      exists_bind_eq_ok (exists_mapM_eq_ok ?_) fun _ => ⟨_, rfl⟩
    exact fun method hmem => exists_bind_eq_ok (hmethod method hmem 1) fun _ => ⟨_, rfl⟩
  | es6 =>
    refine exists_bind_eq_ok hsuper fun _ => exists_bind_eq_ok (hinit 2) fun _ =>
      exists_bind_eq_ok (exists_mapM_eq_ok ?_) fun _ => ⟨_, rfl⟩
    exact fun method hmem => exists_bind_eq_ok (hmethod method hmem 2) fun _ => ⟨_, rfl⟩

theorem Program.exists_script_eq_ok {program : Program} (hwell : program.isWellFormed = true)
    (target : Target) : ∃ script, program.script target = .ok script := by
  simp only [Program.isWellFormed, Bool.and_eq_true, List.all_eq_true] at hwell
  refine exists_bind_eq_ok (exists_mapM_eq_ok ?_) fun _ =>
    exists_bind_eq_ok (Stmt.exists_scripts_eq_ok hwell.2 0) fun _ => ⟨_, rfl⟩
  exact fun classDef hmem => ClassDef.exists_script (hwell.1.1 classDef hmem) target

/-- The scripts of statements are found one after the other. -/
theorem Stmt.scripts_append (depth : Nat) (first last : List Stmt) :
    Stmt.scripts depth (first ++ last) = (do
      let left ← Stmt.scripts depth first
      let right ← Stmt.scripts depth last
      return left ++ right) := by
  induction first with
  | nil =>
    rw [List.nil_append]
    cases Stmt.scripts depth last <;> rfl
  | cons stmt first ih => simp [Stmt.scripts, ih]

/-- The script of statements that are added to a program is added to its
script, also where a tree has holes. -/
theorem Program.script_append (target : Target) (classes : List ClassDef)
    (first last : List Stmt) :
    Program.script target ⟨classes, first ++ last⟩ = (do
      let left ← Program.script target ⟨classes, first⟩
      let right ← Program.script target ⟨[], last⟩
      return left ++ right) := by
  simp [Program.script, Stmt.scripts_append, String.append_assoc]

/-- A unit is its program and the script of it. -/
theorem CompiledUnit.ofSource_eq_ok {name source script : String} {program : Program}
    {target : Target} (hprogram : Program.ofSource source name = .ok program)
    (hscript : program.script target = .ok script) :
    CompiledUnit.ofSource target name source = .ok ⟨⟨name, script⟩, program⟩ := by
  rw [CompiledUnit.ofSource, hprogram]
  change (Except.mapError BuildError.script (program.script target) >>= _) = _
  rw [hscript]
  rfl

theorem Program.isWellFormed_of_ofSource {source file : String} {program : Program}
    (heq : Program.ofSource source file = .ok program) : program.isWellFormed = true := by
  obtain ⟨tokens, htokens, hprogram⟩ := Parser.bind_eq_ok heq
  exact Program.isWellFormed_of_ofTokens htokens hprogram

/-! ## One source below another -/

/-- Of two sources that can be read, one below the other, the second adds its
statements to the program and its script to the script of the first.  If it has
a class, the two together are tokens but no program. -/
theorem compile_concatenated_sources {left right leftName rightName : String}
    {first last : Program} (hfirst : Program.ofSource left leftName = .ok first)
    (hlast : Program.ofSource right rightName = .ok last) (name : String) :
    (last.classes = [] →
      Program.ofSource (left ++ "\n" ++ right) name =
          .ok ⟨first.classes, first.stmts ++ last.stmts⟩ ∧
        ∀ target, ∃ leftScript rightScript,
          CompiledUnit.ofSource target leftName left = .ok ⟨⟨leftName, leftScript⟩, first⟩ ∧
          CompiledUnit.ofSource target rightName right = .ok ⟨⟨rightName, rightScript⟩, last⟩ ∧
          CompiledUnit.ofSource target name (left ++ "\n" ++ right) =
            .ok ⟨⟨name, leftScript ++ rightScript⟩,
              ⟨first.classes, first.stmts ++ last.stmts⟩⟩) ∧
      (last.classes ≠ [] → ∃ tokens error, tokenize (left ++ "\n" ++ right) name = .ok tokens ∧
        Program.ofTokens tokens = .error error) := by
  obtain ⟨leftLexemes, hleft, hleftProgram⟩ := Program.ofSource_eq_ok_iff.mp hfirst
  obtain ⟨rightLexemes, hright, hrightProgram⟩ := Program.ofSource_eq_ok_iff.mp hlast
  have hscans := scans_concatenated hleft hright
  constructor
  · intro hclasses
    have hprogram : Program.ofSource (left ++ "\n" ++ right) name =
        .ok ⟨first.classes, first.stmts ++ last.stmts⟩ :=
      Program.ofSource_eq_ok_iff.mpr ⟨_, hscans, hleftProgram.append hrightProgram hclasses⟩
    refine ⟨hprogram, ?_⟩
    intro target
    obtain ⟨leftScript, hleftScript⟩ :=
      Program.exists_script_eq_ok (Program.isWellFormed_of_ofSource hfirst) target
    obtain ⟨rightScript, hrightScript⟩ :=
      Program.exists_script_eq_ok (Program.isWellFormed_of_ofSource hlast) target
    have hscript : Program.script target ⟨first.classes, first.stmts ++ last.stmts⟩ =
        .ok (leftScript ++ rightScript) := by
      have hadded : Program.script target ⟨[], last.stmts⟩ = .ok rightScript :=
        hclasses ▸ hrightScript
      rw [Program.script_append, hleftScript, hadded]
      rfl
    exact ⟨leftScript, rightScript, CompiledUnit.ofSource_eq_ok hfirst hleftScript,
      CompiledUnit.ofSource_eq_ok hlast hrightScript, CompiledUnit.ofSource_eq_ok hprogram hscript⟩
  · intro hclasses
    obtain ⟨tokens, htokens, henclose⟩ := tokenize_of_scans hscans name
    obtain ⟨error, herror⟩ := Program.exists_error_of_class hscans henclose hleftProgram
      (hrightProgram.starts_of_classes hclasses)
    exact ⟨tokens, error, htokens, herror⟩

/-- The branch at the end of the first source stays without an `else`, and the
first source cannot stand below itself because of its class. -/
theorem compile_concatenated_sources_open_branch :
    ∃ first last : Program,
      first = ⟨[⟨"A", some "B", [], ⟨[], true, [.name "x"], []⟩, []⟩],
        [.ifThen (.name "x") (.expression (.name "y"))]⟩ ∧
      last = ⟨[], [.expression (.name "z")]⟩ ∧
      Program.ofSource "class A extends B \x7b init() \x7b super(x); \x7d \x7d\nif (x) y;" "first" =
        .ok first ∧
      Program.ofSource "z;" "last" = .ok last ∧
      CompiledUnit.ofSource .es5 "both"
          "class A extends B \x7b init() \x7b super(x); \x7d \x7d\nif (x) y;\nz;" =
        .ok ⟨⟨"both", "function A() \x7b\n\tB.call(this, x);\n\x7d\n" ++
            "Object.setPrototypeOf(A.prototype, B.prototype);\n\nif (x) y;\nz;\n"⟩,
          ⟨first.classes, first.stmts ++ last.stmts⟩⟩ ∧
      ∃ tokens error, tokenize
          ("class A extends B \x7b init() \x7b super(x); \x7d \x7d\nif (x) y;\n" ++
            "class A extends B \x7b init() \x7b super(x); \x7d \x7d\nif (x) y;") "twice" =
          .ok tokens ∧ Program.ofTokens tokens = .error error := by
  have hread : ∀ (program : Program) (source file : String), program.isWellFormed = true →
      program.source = source → Program.ofSource source file = .ok program := by
    rintro program source file hwell rfl
    obtain ⟨lexemes, hspells, hprogram⟩ := Program.written_source hwell
    exact Program.ofSource_eq_ok_iff.mpr ⟨lexemes, hspells.scans, hprogram⟩
  have hfirst := hread ⟨[⟨"A", some "B", [], ⟨[], true, [.name "x"], []⟩, []⟩],
      [.ifThen (.name "x") (.expression (.name "y"))]⟩
    "class A extends B \x7b init() \x7b super(x); \x7d \x7d\nif (x) y;" "first"
    (by decide) (by decide)
  have hlast := hread ⟨[], [.expression (.name "z")]⟩ "z;" "last" (by decide) (by decide)
  refine ⟨_, _, rfl, rfl, hfirst, hlast, ?_, ?_⟩
  · obtain ⟨-, hscripts⟩ := (compile_concatenated_sources hfirst hlast "both").1 rfl
    obtain ⟨leftScript, rightScript, hleft, hright, hboth⟩ := hscripts .es5
    have hleftText := hleft.symm.trans (CompiledUnit.ofSource_eq_ok hfirst
      (rfl : _ = Except.ok ("function A() \x7b\n\tB.call(this, x);\n\x7d\n" ++
        "Object.setPrototypeOf(A.prototype, B.prototype);\n\nif (x) y;\n")))
    have hrightText := hright.symm.trans
      (CompiledUnit.ofSource_eq_ok hlast (rfl : _ = Except.ok "z;\n"))
    cases hleftText
    cases hrightText
    exact hboth
  · exact (compile_concatenated_sources hfirst hfirst "twice").2 (List.cons_ne_nil _ _)

end ClassLang
