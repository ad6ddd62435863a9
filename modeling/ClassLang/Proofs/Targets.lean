import ClassLang.Proofs.Concatenation
import ClassLang.Proofs.Nesting

/-!
# One class for two targets

A constructor function and a class declaration hold the same statements.  The
declaration puts them one level deeper, and it calls the constructor of the base
class in its own way.
-/

namespace ClassLang

namespace ClassDef

/-- The first line of a class as a constructor function. -/
def functionLine (classDef : ClassDef) : String :=
  "function " ++ classDef.name ++ "(" ++ VarDec.names classDef.init.params ++ ") \x7b"

/-- The line that opens the constructor in a class declaration. -/
def constructorLine (classDef : ClassDef) : String :=
  "\tconstructor(" ++ VarDec.names classDef.init.params ++ ") \x7b"

/-- What a constructor function has between its first line and the brace that
closes it. -/
def functionLines (classDef : ClassDef) (script : String) : List String :=
  Text.linesBetween classDef.functionLine "\x7d" script

/-- What a class declaration has between the first line of its constructor and
the brace that closes it. -/
def constructorLines (classDef : ClassDef) (script : String) : List String :=
  Text.linesBetween classDef.constructorLine "\t\x7d" script

/-- The line that links a constructor function to that of the base class. -/
def linkLines (classDef : ClassDef) : List String :=
  match classDef.base with
  | some base =>
    ["Object.setPrototypeOf(" ++ classDef.name ++ ".prototype, " ++ base ++ ".prototype);"]
  | none => []

/-- A method with the script of its body, set on the prototype. -/
def functionMethod (classDef : ClassDef) (method : Method) (body : String) : String :=
  classDef.name ++ ".prototype." ++ method.name ++ " = function(" ++ VarDec.names method.params
    ++ ") " ++ body ++ ";\n"

/-- A method with the script of its body, in a class declaration. -/
def declaredMethod (method : Method) (body : String) : String :=
  "\t" ++ method.name ++ "(" ++ VarDec.names method.params ++ ") " ++ body ++ "\n"

/-- The two scripts of a class say the same.  The lines of the constructor differ
by a tab, and in the way in which the constructor of the base class is called
with the same arguments.  The methods come in the same order with the same names
and parameters, and their bodies differ by a tab behind every line feed. -/
structure ScriptsAgree (classDef : ClassDef) (function declaration : String) : Prop where
  plain : classDef.init.callsSuper = false →
    classDef.constructorLines declaration = (classDef.functionLines function).map ("\t" ++ ·)
  calling : classDef.init.callsSuper = true →
    ∃ base args lines, classDef.base = some base ∧
      Exp.scripts classDef.init.superArgs = .ok args ∧
      classDef.functionLines function =
        ("\t" ++ base ++ ".call(this" ++
          (if args.isEmpty then "" else ", " ++ Text.commaSeparated args) ++ ");") :: lines ∧
      classDef.constructorLines declaration =
        ("\t\tsuper(" ++ Text.commaSeparated args ++ ");") :: lines.map ("\t" ++ ·)
  methods : ∃ bodies : List (Method × String), bodies.map Prod.fst = classDef.methods ∧
    (∀ method body, (method, body) ∈ bodies → (Stmt.block method.body).script 0 = .ok body) ∧
    function =
      Text.unlines (classDef.functionLine :: classDef.functionLines function
          ++ "\x7d" :: classDef.linkLines)
        ++ String.join (bodies.map fun (method, body) => classDef.functionMethod method body) ∧
    declaration =
      Text.unlines ((classDef.header ++ " \x7b") :: classDef.constructorLine
          :: classDef.constructorLines declaration ++ ["\t\x7d"])
        ++ String.join (bodies.map fun (method, body) => declaredMethod method (Text.nested body))
        ++ "\x7d\n"

end ClassDef

/-! ## The lines of the constructor -/

namespace Text

theorem nested_iterate_of_line {line : String} (hline : '\n' ∉ line.toList) (depth : Nat) :
    nested^[depth] line = line :=
  Function.iterate_fixed (nested_of_not_mem hline) depth

/-- Indenting a text indents each of its lines. -/
theorem lines_indented (depth : Nat) (text : String) :
    lines (indentation depth ++ nested^[depth] text) =
      (lines text).map (indentation depth ++ ·) := by
  induction depth with
  | zero =>
    have hzero : indentation 0 = "" := rfl
    simp [hzero]
  | succ depth ih =>
    calc
      lines (indentation (depth + 1) ++ nested^[depth + 1] text) =
          lines ("\t" ++ nested (indentation depth ++ nested^[depth] text)) := by
        rw [Function.iterate_succ_apply', indentation_succ, String.append_assoc,
          nested_append_of_line (newline_not_mem_indentation depth)]
      _ = ((lines text).map (indentation depth ++ ·)).map ("\t" ++ ·) := by
        rw [lines_tab_nested, ih]
      _ = (lines text).map (indentation (depth + 1) ++ ·) := by
        rw [List.map_map, indentation_succ]
        simp only [Function.comp_def, String.append_assoc]

end Text

/-- Scripts that are nested and put on lines are the lines of the scripts, indented. -/
theorem scriptLines_eq_unlines (depth : Nat) (scripts : List String) :
    String.join ((scripts.map Text.nested^[depth]).map (scriptLine depth)) =
      Text.unlines ((scripts.flatMap Text.lines).map (Text.indentation depth ++ ·)) := by
  induction scripts with
  | nil => rfl
  | cons script scripts ih =>
    simp only [List.map_cons, String.join_cons, List.flatMap_cons, List.map_append,
      Text.unlines_append, ih]
    rw [← Text.lines_indented, Text.unlines_lines]
    rfl

/-- One script for each statement serves all depths. -/
theorem Stmt.exists_scripts_at {stmts : List Stmt} (hwell : Stmt.allWellFormed stmts = true) :
    ∃ scripts : List String,
      ∀ depth, Stmt.scripts depth stmts = .ok (scripts.map Text.nested^[depth]) := by
  obtain ⟨scripts, hscripts⟩ := Stmt.exists_scripts_eq_ok hwell 0
  refine ⟨scripts, fun depth => ?_⟩
  induction depth with
  | zero => simpa using hscripts
  | succ depth ih =>
    rw [Stmt.scripts_succ depth stmts hwell, ih, Function.iterate_succ', ← List.map_map]
    rfl

/-- The lines of a constructor are the same for both targets but for the depth. -/
theorem ClassDef.exists_initLines {classDef : ClassDef}
    (hfields : classDef.fields.all VarDec.isWellFormed = true)
    (hbody : Stmt.allWellFormed classDef.init.body = true) :
    ∃ lines : List String, (∀ line ∈ lines, '\n' ∉ line.toList) ∧
      ∀ depth, classDef.initLines depth =
        .ok (Text.unlines (lines.map (Text.indentation depth ++ ·))) := by
  obtain ⟨scripts, hscripts⟩ := Stmt.exists_scripts_at hbody
  refine ⟨(classDef.fields.map VarDec.script ++ scripts).flatMap Text.lines, ?_, ?_⟩
  · intro line hmem
    obtain ⟨script, -, hline⟩ := List.mem_flatMap.mp hmem
    exact Text.not_mem_of_mem_lines hline
  · intro depth
    have hdeclared : (classDef.fields.map VarDec.script).map Text.nested^[depth] =
        classDef.fields.map VarDec.script := by
      rw [List.map_map]
      apply List.map_congr_left
      intro field hmem
      have hfield := List.all_eq_true.mp hfields field hmem
      exact Text.nested_iterate_of_line (VarDec.newline_not_mem_script hfield) depth
    rw [ClassDef.initLines, hscripts depth, ← scriptLines_eq_unlines, List.map_append, hdeclared]
    rfl

/-! ## The methods -/

/-- So are the bodies of the methods. -/
theorem Method.exists_bodies {methods : List Method}
    (hwell : ∀ method ∈ methods, method.isWellFormed = true) :
    ∃ bodies : List (Method × String), bodies.map Prod.fst = methods ∧
      ∀ method body, (method, body) ∈ bodies →
        (Stmt.block method.body).script 0 = .ok body ∧
          (Stmt.block method.body).script 1 = .ok (Text.nested body) := by
  induction methods with
  | nil => exact ⟨[], rfl, by simp⟩
  | cons method methods ih =>
    rw [List.forall_mem_cons] at hwell
    obtain ⟨bodies, rfl, hbodies⟩ := ih hwell.2
    have hmethod := hwell.1
    rw [Method.isWellFormed, Bool.and_eq_true] at hmethod
    obtain ⟨body, hbody⟩ :=
      exists_bind_eq_ok (Stmt.exists_scripts_eq_ok hmethod.2 1) fun scripts =>
        ⟨scriptBlock 0 scripts, rfl⟩
    have hscript : (Stmt.block method.body).script 0 = .ok body := hbody
    refine ⟨(method, body) :: bodies, rfl, ?_⟩
    intro other text hmem
    rcases List.mem_cons.mp hmem with heq | hmem
    · cases heq
      refine ⟨hscript, ?_⟩
      rw [Stmt.script_succ 0 (.block method.body) hmethod.2, hscript]
      rfl
    · exact hbodies other text hmem

theorem mapM_map_eq_ok {α β γ ε : Type} {items : List α} {key : α → β} {f : β → Except ε γ}
    {value : α → γ} (hitems : ∀ item ∈ items, f (key item) = .ok (value item)) :
    (items.map key).mapM f = .ok (items.map value) := by
  induction items with
  | nil => rfl
  | cons item items ih =>
    rw [List.forall_mem_cons] at hitems
    rw [List.map_cons, List.mapM_cons, hitems.1, ih hitems.2]
    rfl

theorem Method.render_body {method : Method} {depth : Nat} {body : String}
    (hbody : (Stmt.block method.body).script depth = .ok body) (render : String → String) :
    (do
      let scripts ← Stmt.scripts (depth + 1) method.body
      return render (scriptBlock depth scripts)) =
        (.ok (render body) : Except ScriptError String) := by
  rw [Stmt.script] at hbody
  cases hscripts : Stmt.scripts (depth + 1) method.body with
  | error error =>
    rw [hscripts] at hbody
    cases hbody
  | ok scripts =>
    rw [hscripts] at hbody
    cases hbody
    rfl

/-! ## The whole scripts -/

theorem Text.commaSeparated_cons (first : String) (texts : List String) :
    commaSeparated (first :: texts) =
      first ++ (if texts.isEmpty then "" else ", " ++ commaSeparated texts) := by
  cases texts with
  | nil => simp [commaSeparated]
  | cons second texts =>
    simp [commaSeparated, String.intercalate_cons_cons, String.append_assoc]

theorem VarDec.newline_not_mem_names {params : List VarDec}
    (hwell : ∀ param ∈ params, param.isWellFormed = true) :
    '\n' ∉ (VarDec.names params).toList := by
  have hnames : ∀ name ∈ params.map VarDec.name, Text.Within isScriptChar name := by
    rw [List.forall_mem_map]
    intro param hmem
    have hparam := hwell param hmem
    rw [VarDec.isWellFormed, Bool.and_eq_true] at hparam
    exact Lexeme.within_of_isName hparam.2
  exact (Text.Within.commaSeparated (by decide) hnames).not_mem (by decide)

theorem Constructor.exists_superScripts {init : Constructor}
    (hwell : Exp.allWellFormed init.superArgs = true) :
    ∃ args, init.superScripts = .ok args ∧ '\n' ∉ (Text.commaSeparated args).toList := by
  by_cases hcalls : init.callsSuper = true
  · obtain ⟨args, heq, hargs⟩ := isOfPieces_within.exists_scripts init.superArgs hwell
    have hline := Text.Within.commaSeparated (by decide) hargs
    exact ⟨args, by rw [superScripts, if_pos hcalls, heq], hline.not_mem (by decide)⟩
  · exact ⟨[], by rw [superScripts, if_neg hcalls], by decide⟩

/-- The line with the call of the base class's constructor, if it is called. -/
def Constructor.superLine (init : Constructor) (call : String) : List String :=
  if init.callsSuper then [call] else []

namespace ClassDef

/-- What both scripts of a class are made of: arguments for the base class, the
lines of the constructor, and the methods with the scripts of their bodies. -/
structure IsMadeOf (classDef : ClassDef) (args lines : List String)
    (bodies : List (Method × String)) : Prop where
  args_eq : classDef.init.superScripts = .ok args
  args_line : '\n' ∉ (Text.commaSeparated args).toList
  init_eq : ∀ depth, classDef.initLines depth =
    .ok (Text.unlines (lines.map (Text.indentation depth ++ ·)))
  init_line : ∀ line ∈ lines, '\n' ∉ line.toList
  methods_eq : bodies.map Prod.fst = classDef.methods
  body_eq : ∀ method body, (method, body) ∈ bodies →
    (Stmt.block method.body).script 0 = .ok body ∧
      (Stmt.block method.body).script 1 = .ok (Text.nested body)

variable {classDef : ClassDef} {args lines : List String} {bodies : List (Method × String)}

/-- A well-formed class has all the parts that both scripts are made of. -/
theorem exists_isMadeOf (hwell : classDef.isWellFormed = true) :
    ∃ args lines bodies, classDef.IsMadeOf args lines bodies := by
  simp only [isWellFormed, Constructor.isWellFormed, Bool.and_eq_true] at hwell
  obtain ⟨⟨⟨-, hfields⟩, ⟨-, hargsWell⟩, hbody⟩, hmethodsWell⟩ := hwell
  obtain ⟨args, hargs, hargsLine⟩ := Constructor.exists_superScripts hargsWell
  obtain ⟨lines, hlines, hinit⟩ := exists_initLines hfields hbody
  obtain ⟨bodies, hmethods, hbodies⟩ := Method.exists_bodies (List.all_eq_true.mp hmethodsWell)
  exact ⟨args, lines, bodies, hargs, hargsLine, hinit, hlines, hmethods, hbodies⟩

/-- The parts, put together as functions. -/
theorem functionScript_eq_ok (hparts : classDef.IsMadeOf args lines bodies) :
    classDef.functionScript = .ok (
      Text.unlines (classDef.functionLine ::
          (classDef.init.superLine (classDef.base.getD "" ++ ".call(" ++
            Text.commaSeparated ("this" :: args) ++ ");") ++ lines).map ("\t" ++ ·)
          ++ "\x7d" :: classDef.linkLines)
        ++ String.join (bodies.map fun (method, body) => classDef.functionMethod method body)) := by
  have htab : Text.indentation 1 = "\t" := rfl
  have hmapM : (classDef.methods.mapM fun method => do
      let scripts ← Stmt.scripts 1 method.body
      return classDef.functionMethod method (scriptBlock 0 scripts)) =
        .ok (bodies.map fun (method, body) => classDef.functionMethod method body) := by
    rw [← hparts.methods_eq]
    exact mapM_map_eq_ok fun (method, body) hmem =>
      Method.render_body (hparts.body_eq method body hmem).1 (classDef.functionMethod method)
  simp only [functionMethod] at hmapM ⊢
  rw [functionScript, hparts.args_eq, hparts.init_eq, hmapM]
  apply congrArg Except.ok
  -- The text is cut into other literals on the two sides, so characters are compared.
  apply String.toList_inj.mp
  cases hcalls : classDef.init.callsSuper <;> cases hbase : classDef.base <;>
    simp [Constructor.superLine, functionLine, linkLines, scriptLine, hcalls, hbase, htab]

/-- The same parts, put together as a declaration. -/
theorem declarationScript_eq_ok (hparts : classDef.IsMadeOf args lines bodies) :
    classDef.declarationScript = .ok (
      Text.unlines ((classDef.header ++ " \x7b") :: classDef.constructorLine ::
          (classDef.init.superLine ("super(" ++ Text.commaSeparated args ++ ");") ++ lines).map
            ("\t\t" ++ ·) ++ ["\t\x7d"])
        ++ (String.join (bodies.map fun (method, body) => declaredMethod method (Text.nested body))
          ++ "\x7d\n")) := by
  have htab : Text.indentation 1 = "\t" := rfl
  have htabs : Text.indentation 2 = "\t\t" := rfl
  have hmapM : (classDef.methods.mapM fun method => do
      let scripts ← Stmt.scripts 2 method.body
      return declaredMethod method (scriptBlock 1 scripts)) =
        .ok (bodies.map fun (method, body) => declaredMethod method (Text.nested body)) := by
    rw [← hparts.methods_eq]
    exact mapM_map_eq_ok fun (method, body) hmem =>
      Method.render_body (hparts.body_eq method body hmem).2 (declaredMethod method)
  simp only [declaredMethod, String.append_assoc] at hmapM ⊢
  rw [declarationScript, hparts.args_eq, hparts.init_eq]
  simp only [scriptLine, htab, String.append_assoc]
  rw [hmapM]
  apply congrArg Except.ok
  apply String.toList_inj.mp
  cases hcalls : classDef.init.callsSuper <;>
    simp [Constructor.superLine, constructorLine, htabs, hcalls]

/-! ## The constructor within its script -/

/-- No name in the lines around those of the constructor has a line feed in it. -/
theorem newline_not_mem_lines (hwell : classDef.isWellFormed = true) :
    '\n' ∉ classDef.functionLine.toList ∧ '\n' ∉ classDef.constructorLine.toList ∧
      '\n' ∉ classDef.header.toList ∧ '\n' ∉ (classDef.base.getD "").toList := by
  simp only [isWellFormed, Constructor.isWellFormed, Bool.and_eq_true, List.all_eq_true] at hwell
  obtain ⟨⟨⟨⟨hname, hbase⟩, -⟩, ⟨⟨⟨hparams, -⟩, -⟩, -⟩, -⟩, -⟩ := hwell
  have hnameLine : '\n' ∉ classDef.name.toList :=
    (Lexeme.within_of_isName hname).not_mem (by decide)
  have hparamsLine := VarDec.newline_not_mem_names hparams
  refine ⟨by simp [functionLine, hnameLine, hparamsLine],
    by simp [constructorLine, hparamsLine], ?_⟩
  cases hextends : classDef.base with
  | none => simp [header, hextends, hnameLine]
  | some base =>
    rw [hextends] at hbase
    have hbaseLine : '\n' ∉ base.toList := (Lexeme.within_of_isName hbase).not_mem (by decide)
    simp [header, hextends, hnameLine, hbaseLine]

theorem IsMadeOf.newline_not_mem (hparts : classDef.IsMadeOf args lines bodies) {call : String}
    (hcall : '\n' ∉ call.toList) :
    ∀ line ∈ classDef.init.superLine call ++ lines, '\n' ∉ line.toList := by
  rw [List.forall_mem_append, Constructor.superLine]
  refine ⟨?_, hparts.init_line⟩
  split
  · simpa using hcall
  · simp

/-- The lines between the braces of the function are found again. -/
theorem functionLines_eq (hwell : classDef.isWellFormed = true) {inner : List String}
    (hinner : ∀ line ∈ inner, '\n' ∉ line.toList) (after : List String) (rest : String) :
    classDef.functionLines (Text.unlines (classDef.functionLine :: inner.map ("\t" ++ ·)
      ++ "\x7d" :: after) ++ rest) = inner.map ("\t" ++ ·) := by
  obtain ⟨hfunction, -⟩ := newline_not_mem_lines hwell
  have hopening : classDef.functionLine ∉ [] := List.not_mem_nil
  have hclosing : "\x7d" ∉ inner.map ("\t" ++ ·) := by
    intro hmem
    obtain ⟨line, -, heq⟩ := List.mem_map.mp hmem
    simpa using congrArg String.toList heq
  apply Text.linesBetween_unlines ?_ hopening hclosing
  simp only [List.nil_append, List.forall_mem_cons, List.forall_mem_append, List.forall_mem_map]
  exact ⟨hfunction, by simpa using hinner, by decide, by simp⟩

/-- The lines between the braces of the constructor are found again. -/
theorem constructorLines_eq (hwell : classDef.isWellFormed = true) {inner : List String}
    (hinner : ∀ line ∈ inner, '\n' ∉ line.toList) (rest : String) :
    classDef.constructorLines (Text.unlines ((classDef.header ++ " \x7b") ::
      classDef.constructorLine :: inner.map ("\t\t" ++ ·) ++ ["\t\x7d"]) ++ rest) =
        inner.map ("\t\t" ++ ·) := by
  obtain ⟨-, hconstructor, hheader, -⟩ := newline_not_mem_lines hwell
  have hopening : classDef.constructorLine ∉ [classDef.header ++ " \x7b"] := by
    simp [← String.toList_inj, constructorLine, header]
  have hclosing : "\t\x7d" ∉ inner.map ("\t\t" ++ ·) := by
    intro hmem
    obtain ⟨line, -, heq⟩ := List.mem_map.mp hmem
    simpa using congrArg String.toList heq
  apply Text.linesBetween_unlines ?_ hopening hclosing
  simp only [List.cons_append, List.nil_append, List.forall_mem_cons, List.forall_mem_append,
    List.forall_mem_map]
  exact ⟨by simpa using hheader, hconstructor, by simpa using hinner, by decide, by simp⟩

theorem exists_functionScript (hwell : classDef.isWellFormed = true)
    (hparts : classDef.IsMadeOf args lines bodies) :
    ∃ function, classDef.script .es5 = .ok function ∧
      classDef.functionLines function =
        (classDef.init.superLine (classDef.base.getD "" ++ ".call(" ++
          Text.commaSeparated ("this" :: args) ++ ");") ++ lines).map ("\t" ++ ·) ∧
      function =
        Text.unlines (classDef.functionLine :: classDef.functionLines function
            ++ "\x7d" :: classDef.linkLines)
          ++ String.join
            (bodies.map fun (method, body) => classDef.functionMethod method body) := by
  obtain ⟨-, -, -, hbase⟩ := newline_not_mem_lines hwell
  have hcall : '\n' ∉ (classDef.base.getD "" ++ ".call(" ++
      Text.commaSeparated ("this" :: args) ++ ");").toList := by
    rw [Text.commaSeparated_cons]
    split <;> simp [hbase, hparts.args_line]
  have hlines := functionLines_eq hwell (hparts.newline_not_mem hcall) classDef.linkLines
    (String.join (bodies.map fun (method, body) => classDef.functionMethod method body))
  exact ⟨_, functionScript_eq_ok hparts, hlines, by rw [hlines]⟩

theorem exists_declarationScript (hwell : classDef.isWellFormed = true)
    (hparts : classDef.IsMadeOf args lines bodies) :
    ∃ declaration, classDef.script .es6 = .ok declaration ∧
      classDef.constructorLines declaration =
        (classDef.init.superLine ("super(" ++ Text.commaSeparated args ++ ");") ++ lines).map
          ("\t\t" ++ ·) ∧
      declaration =
        Text.unlines ((classDef.header ++ " \x7b") :: classDef.constructorLine
            :: classDef.constructorLines declaration ++ ["\t\x7d"])
          ++ (String.join
              (bodies.map fun (method, body) => declaredMethod method (Text.nested body))
            ++ "\x7d\n") := by
  have hcall : '\n' ∉ ("super(" ++ Text.commaSeparated args ++ ");").toList := by
    simp [hparts.args_line]
  have hlines := constructorLines_eq hwell (hparts.newline_not_mem hcall)
    (String.join (bodies.map fun (method, body) => declaredMethod method (Text.nested body))
      ++ "\x7d\n")
  exact ⟨_, declarationScript_eq_ok hparts, hlines, by rw [hlines]⟩

/-! ## Agreement -/

/-- The class has a script for either target, and the two agree. -/
def TargetsAgree (classDef : ClassDef) : Prop :=
  ∃ function declaration, classDef.script .es5 = .ok function ∧
    classDef.script .es6 = .ok declaration ∧ classDef.ScriptsAgree function declaration

theorem exists_base_of_callsSuper (hwell : classDef.isWellFormed = true)
    (hcalls : classDef.init.callsSuper = true) : ∃ base, classDef.base = some base := by
  simp only [isWellFormed, Constructor.isWellFormed, Bool.and_eq_true, hcalls] at hwell
  obtain ⟨⟨-, ⟨⟨⟨-, hbase⟩, -⟩, -⟩, -⟩, -⟩ := hwell
  exact Option.isSome_iff_exists.mp (by simpa using hbase)

/-- Both targets have the same lines in the constructor and the same bodies of methods. -/
theorem targetsAgree (hwell : classDef.isWellFormed = true) : classDef.TargetsAgree := by
  obtain ⟨args, lines, bodies, hparts⟩ := exists_isMadeOf hwell
  obtain ⟨function, hfunction, hfunctionLines, hfunctionText⟩ := exists_functionScript hwell hparts
  obtain ⟨declaration, hdeclaration, hconstructorLines, hdeclarationText⟩ :=
    exists_declarationScript hwell hparts
  have hdeeper : (lines.map ("\t" ++ ·)).map ("\t" ++ ·) = lines.map ("\t\t" ++ ·) := by
    rw [List.map_map]
    apply List.map_congr_left
    intro line _
    rw [Function.comp_apply, ← String.append_assoc]
    rfl
  refine ⟨function, declaration, hfunction, hdeclaration, ?_, ?_, ?_⟩
  · intro hplain
    rw [hfunctionLines, hconstructorLines, Constructor.superLine, Constructor.superLine, hplain]
    exact hdeeper.symm
  · intro hcalls
    obtain ⟨base, hbase⟩ := exists_base_of_callsSuper hwell hcalls
    refine ⟨base, args, lines.map ("\t" ++ ·), hbase, ?_, ?_, ?_⟩
    · rw [← hparts.args_eq, Constructor.superScripts, if_pos hcalls]
    · rw [hfunctionLines, Constructor.superLine, if_pos hcalls, hbase, Text.commaSeparated_cons]
      simp [← String.toList_inj]
    · rw [hconstructorLines, Constructor.superLine, if_pos hcalls, hdeeper]
      simp [← String.toList_inj]
  · refine ⟨bodies, hparts.methods_eq, ?_, hfunctionText, ?_⟩
    · exact fun method body hmem => (hparts.body_eq method body hmem).1
    · rw [String.append_assoc]
      exact hdeclarationText

/-- Classes that are read are well-formed. -/
theorem isWellFormed_of_classDefAt {source file : String} {tokens : List Token}
    {place next : Nat} (htokens : tokenize source file = .ok tokens)
    (hread : Parser.classDefAt tokens.toArray place = .ok (classDef, next)) :
    classDef.isWellFormed = true := by
  have hproper := allProper_drop_of_tokenize htokens place
  rw [Parser.classDefAt_eq] at hread
  obtain ⟨rest, houtcome, -⟩ := Parser.readAt_eq_ok.mp hread
  obtain ⟨used, hsplit, hclass⟩ := Parser.reads_classDef hproper houtcome
  rw [hsplit] at hproper
  exact hclass.isWellFormed (List.forall_mem_map.mpr hproper.append_left)

end ClassDef

/-- Every class that can be read, alone or in a program, has scripts for both
targets that agree. -/
theorem class_scripts_agree {source file : String} {tokens : List Token}
    (htokens : tokenize source file = .ok tokens) :
    (∀ place classDef next,
      Parser.classDefAt tokens.toArray place = .ok (classDef, next) →
        classDef.TargetsAgree) ∧
      ∀ program, Program.ofTokens tokens = .ok program →
        ∀ classDef ∈ program.classes, classDef.TargetsAgree := by
  constructor
  · intro place classDef next hread
    exact ClassDef.targetsAgree (ClassDef.isWellFormed_of_classDefAt htokens hread)
  · intro program hprogram classDef hmem
    have hwell := Program.isWellFormed_of_ofTokens htokens hprogram
    simp only [Program.isWellFormed, Bool.and_eq_true, List.all_eq_true] at hwell
    exact ClassDef.targetsAgree (hwell.1.1 classDef hmem)

/-- A class with a call of the base class's constructor, blocks in blocks, and a
declaration that gets a block of its own. -/
theorem class_scripts_agree_nested :
    ∃ (tokens : List Token) (classDef : ClassDef),
      tokenize
          ("class A extends B \x7b int n; init(int a) \x7b super(a, 1); "
            ++ "\x7b \x7b n = a; \x7d \x7d \x7d "
            ++ "method f(bool b) void \x7b while (b) int x; \x7d \x7d\nbreak;") "file" =
        .ok tokens ∧
      Program.ofTokens tokens = .ok ⟨[classDef], [.breakLoop]⟩ ∧
      classDef.TargetsAgree ∧
      classDef.script .es5 = .ok ("function A(a) \x7b\n"
        ++ "\tB.call(this, a, 1);\n\tlet n;\n"
        ++ "\t\x7b\n\t\t\x7b\n\t\t\tn = a;\n\t\t\x7d\n\t\x7d\n"
        ++ "\x7d\nObject.setPrototypeOf(A.prototype, B.prototype);\n"
        ++ "A.prototype.f = function(b) \x7b\n\twhile (b) \x7b\n\t\tlet x;\n\t\x7d\n\x7d;\n") ∧
      classDef.script .es6 = .ok ("class A extends B \x7b\n\tconstructor(a) \x7b\n"
        ++ "\t\tsuper(a, 1);\n\t\tlet n;\n"
        ++ "\t\t\x7b\n\t\t\t\x7b\n\t\t\t\tn = a;\n\t\t\t\x7d\n\t\t\x7d\n"
        ++ "\t\x7d\n\tf(b) \x7b\n\t\twhile (b) \x7b\n\t\t\tlet x;\n\t\t\x7d\n\t\x7d\n\x7d\n") := by
  have hread : Program.ofSource
      ("class A extends B \x7b int n; init(int a) \x7b super(a, 1); "
        ++ "\x7b \x7b n = a; \x7d \x7d \x7d "
        ++ "method f(bool b) void \x7b while (b) int x; \x7d \x7d\nbreak;") "file" =
      .ok ⟨[⟨"A", some "B", [⟨.int, "n"⟩],
        ⟨[⟨.int, "a"⟩], true, [.name "a", .int 1],
          [.block [.block [.assign (.name "n") (.name "a")]]]⟩,
        [⟨"f", .void, [⟨.bool, "b"⟩], [.whileLoop (.name "b") (.declare ⟨.int, "x"⟩)]⟩]⟩],
        [.breakLoop]⟩ :=
    Program.ofSource_of_source_eq (by decide) (by decide) "file"
  obtain ⟨tokens, htokens, hprogram⟩ := Parser.bind_eq_ok hread
  have hagree := (class_scripts_agree htokens).2 _ hprogram _ (List.mem_singleton.mpr rfl)
  exact ⟨tokens, _, htokens, hprogram, hagree, rfl, rfl⟩

end ClassLang
