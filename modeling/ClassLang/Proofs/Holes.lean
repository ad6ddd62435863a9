import ClassLang.Proofs.Concatenation
import Mathlib.Logic.Relation

/-!
# Scripts of trees with holes

A hole keeps a tree from having a script, but only where the script would show
it.  This module says which positions of a tree these are, without mention of a
target, and shows that both targets fail on the same trees.  A tree that was
read has no hole, so every source that can be read has a script.
-/

namespace ClassLang

/-! ## Positions -/

/-- What stands at a position of a tree that shows in its script. -/
inductive TreeNode where
  | exp (exp : Exp)
  | op (op : Op)
  | stmt (stmt : Stmt)

namespace TreeNode

def isHole : TreeNode → Bool
  | exp .missing | op .missing | stmt .missing => true
  | _ => false

/-- The nodes directly below a node.  Types do not show in a script, and a
`return` without a value or an `if` without an `else` has no position for it. -/
def children : TreeNode → List TreeNode
  | exp (.println value) => [exp value]
  | exp (.call callee args) => exp callee :: args.map exp
  | exp (.binary left operator right) => [exp left, op operator, exp right]
  | stmt (.assign target value) => [exp target, exp value]
  | stmt (.expression value) => [exp value]
  | stmt (.whileLoop cond body) => [exp cond, stmt body]
  | stmt (.returnValue value) => [exp value]
  | stmt (.ifThen cond yes) => [exp cond, stmt yes]
  | stmt (.ifElse cond yes no) => [exp cond, stmt yes, stmt no]
  | stmt (.block stmts) => stmts.map stmt
  | _ => []

/-- Whether the second node is the first one or stands somewhere below it. -/
def Reaches : TreeNode → TreeNode → Prop :=
  Relation.ReflTransGen fun outer inner => inner ∈ outer.children

def HasHole (node : TreeNode) : Prop :=
  ∃ inner, node.Reaches inner ∧ inner.isHole = true

def AnyHole (nodes : List TreeNode) : Prop :=
  ∃ node ∈ nodes, node.HasHole

@[simp]
theorem not_anyHole_nil : ¬ AnyHole [] := by
  simp [AnyHole]

@[simp]
theorem anyHole_cons (node : TreeNode) (nodes : List TreeNode) :
    AnyHole (node :: nodes) ↔ node.HasHole ∨ AnyHole nodes := by
  simp [AnyHole]

@[simp]
theorem anyHole_append (left right : List TreeNode) :
    AnyHole (left ++ right) ↔ AnyHole left ∨ AnyHole right := by
  simp [AnyHole, or_and_right, exists_or]

theorem anyHole_flatMap {α : Type} (nodes : α → List TreeNode) (items : List α) :
    AnyHole (items.flatMap nodes) ↔ ∃ item ∈ items, AnyHole (nodes item) := by
  induction items with
  | nil => simp
  | cons item items ih => simp [ih]

/-- A node has a hole if it is one or if one is below it. -/
theorem hasHole_iff (node : TreeNode) :
    node.HasHole ↔ node.isHole = true ∨ AnyHole node.children := by
  constructor
  · rintro ⟨inner, hreaches, hhole⟩
    rcases hreaches.cases_head with rfl | ⟨child, hchild, hinner⟩
    · exact .inl hhole
    · exact .inr ⟨child, hchild, inner, hinner, hhole⟩
  · rintro (hhole | ⟨child, hchild, inner, hinner, hhole⟩)
    · exact ⟨node, .refl, hhole⟩
    · exact ⟨inner, .head hchild hinner, hhole⟩

theorem hasHole_iff_children {node : TreeNode} (hhole : node.isHole = false) :
    node.HasHole ↔ AnyHole node.children := by
  rw [hasHole_iff, hhole]
  simp

end TreeNode

open TreeNode (AnyHole)

/-- The positions of a class that are not below others.  The arguments for the
base class count only where its constructor is called. -/
def ClassDef.nodes (classDef : ClassDef) : List TreeNode :=
  (if classDef.init.callsSuper then classDef.init.superArgs.map .exp else [])
    ++ classDef.init.body.map .stmt
    ++ classDef.methods.flatMap fun method => method.body.map .stmt

def Program.nodes (program : Program) : List TreeNode :=
  program.classes.flatMap ClassDef.nodes ++ program.stmts.map .stmt

/-- Whether a node stands at one of the positions of a program. -/
def Program.Visits (program : Program) (node : TreeNode) : Prop :=
  ∃ outer ∈ program.nodes, outer.Reaches node

/-- The holes that are visited are those below the nodes of a program. -/
theorem Program.exists_visited_hole_iff (program : Program) :
    (∃ node, program.Visits node ∧ node.isHole = true) ↔ AnyHole program.nodes := by
  constructor
  · rintro ⟨node, ⟨outer, hmem, hreaches⟩, hhole⟩
    exact ⟨outer, hmem, node, hreaches, hhole⟩
  · rintro ⟨outer, hmem, node, hreaches, hhole⟩
    exact ⟨node, ⟨outer, hmem, hreaches⟩, hhole⟩

/-! ## Where scripts fail -/

section Failing

variable {α β : Type}

theorem return_ne_missing (value : α) :
    (return value : Except ScriptError α) ≠ .error .missingNode :=
  nofun

/-- Two steps fail when one of them does, where the failure of the second does
not depend on what the first one returns. -/
theorem bind_eq_missing_iff {first : Except ScriptError α} {next : α → Except ScriptError β}
    {missing : Prop} (hnext : ∀ value, next value = .error .missingNode ↔ missing) :
    first >>= next = .error .missingNode ↔ first = .error .missingNode ∨ missing := by
  cases first with
  | error error =>
    cases error
    exact iff_of_true rfl (.inl rfl)
  | ok value =>
    rw [← hnext value]
    exact (or_iff_right (return_ne_missing value)).symm

theorem map_eq_missing_iff {first : Except ScriptError α} {change : α → β} :
    (do let value ← first; return change value) = .error .missingNode ↔
      first = .error .missingNode := by
  have hreturn (value : α) :
      (return change value : Except ScriptError β) = .error .missingNode ↔ False :=
    iff_false_intro (return_ne_missing (change value))
  rw [bind_eq_missing_iff hreturn, or_false]

/-- A list fails if one of its items does. -/
theorem mapM_eq_missing_iff {f : α → Except ScriptError β} {items : List α} :
    items.mapM f = .error .missingNode ↔ ∃ item ∈ items, f item = .error .missingNode := by
  induction items with
  | nil => exact iff_of_false (return_ne_missing []) (by simp)
  | cons item items ih =>
    rw [List.mapM_cons, bind_eq_missing_iff fun _ => map_eq_missing_iff, ih]
    simp

end Failing

theorem Op.script_eq_missing_iff (op : Op) :
    op.script = .error .missingNode ↔ (TreeNode.op op).HasHole := by
  rw [TreeNode.hasHole_iff]
  cases op <;> simp [Op.script, TreeNode.isHole, TreeNode.children]

mutual

/-- An expression has no script exactly if there is a hole in it. -/
theorem Exp.script_eq_missing_iff :
    ∀ exp : Exp, exp.script = .error .missingNode ↔ (TreeNode.exp exp).HasHole
  | .missing => iff_of_true (by rw [Exp.script]) ⟨_, .refl, rfl⟩
  | .int _ | .bool _ | .this | .name _ | .new _ => by
    rw [TreeNode.hasHole_iff_children rfl, Exp.script]
    exact iff_of_false (return_ne_missing _) TreeNode.not_anyHole_nil
  | .println value => by
    rw [TreeNode.hasHole_iff_children rfl, Exp.script, map_eq_missing_iff,
      value.script_eq_missing_iff]
    simp [TreeNode.children]
  | .call callee args => by
    rw [TreeNode.hasHole_iff_children rfl, Exp.script,
      bind_eq_missing_iff fun _ => map_eq_missing_iff, callee.script_eq_missing_iff,
      Exp.scripts_eq_missing_iff args]
    simp [TreeNode.children]
  | .binary left op right => by
    have hscript : (Exp.binary left op right).script = .error .missingNode ↔
        op.script = .error .missingNode ∨ left.script = .error .missingNode ∨
          right.script = .error .missingNode := by
      rw [Exp.script]
      apply bind_eq_missing_iff
      intro opScript
      apply bind_eq_missing_iff
      intro leftScript
      split
      · exact map_eq_missing_iff
      · exact map_eq_missing_iff
    rw [TreeNode.hasHole_iff_children rfl, hscript, op.script_eq_missing_iff,
      left.script_eq_missing_iff, right.script_eq_missing_iff]
    simp [TreeNode.children, or_left_comm]

theorem Exp.scripts_eq_missing_iff :
    ∀ exps : List Exp, Exp.scripts exps = .error .missingNode ↔ AnyHole (exps.map .exp)
  | [] => by
    rw [Exp.scripts]
    exact iff_of_false (return_ne_missing []) TreeNode.not_anyHole_nil
  | exp :: exps => by
    rw [Exp.scripts, bind_eq_missing_iff fun _ => map_eq_missing_iff, exp.script_eq_missing_iff,
      Exp.scripts_eq_missing_iff exps]
    simp

end

mutual

/-- So it is with a statement, at any depth. -/
theorem Stmt.script_eq_missing_iff (depth : Nat) :
    ∀ stmt : Stmt, stmt.script depth = .error .missingNode ↔ (TreeNode.stmt stmt).HasHole
  | .missing => iff_of_true (by rw [Stmt.script]) ⟨_, .refl, rfl⟩
  | .declare _ | .breakLoop | .returnNone => by
    rw [TreeNode.hasHole_iff_children rfl, Stmt.script]
    exact iff_of_false (return_ne_missing _) TreeNode.not_anyHole_nil
  | .expression value | .returnValue value => by
    rw [TreeNode.hasHole_iff_children rfl, Stmt.script, map_eq_missing_iff,
      value.script_eq_missing_iff]
    simp [TreeNode.children]
  | .assign target value => by
    rw [TreeNode.hasHole_iff_children rfl, Stmt.script,
      bind_eq_missing_iff fun _ => map_eq_missing_iff, target.script_eq_missing_iff,
      value.script_eq_missing_iff]
    simp [TreeNode.children]
  | .whileLoop cond body | .ifThen cond body => by
    rw [TreeNode.hasHole_iff_children rfl, Stmt.script,
      bind_eq_missing_iff fun _ => map_eq_missing_iff, cond.script_eq_missing_iff,
      body.script_eq_missing_iff depth]
    simp [TreeNode.children]
  | .ifElse cond yes no => by
    rw [TreeNode.hasHole_iff_children rfl, Stmt.script,
      bind_eq_missing_iff fun _ => bind_eq_missing_iff fun _ => map_eq_missing_iff,
      cond.script_eq_missing_iff, yes.script_eq_missing_iff depth, no.script_eq_missing_iff depth]
    simp [TreeNode.children]
  | .block stmts => by
    rw [TreeNode.hasHole_iff_children rfl, Stmt.script, map_eq_missing_iff,
      Stmt.scripts_eq_missing_iff (depth + 1) stmts, TreeNode.children]

theorem Stmt.scripts_eq_missing_iff (depth : Nat) :
    ∀ stmts : List Stmt,
      Stmt.scripts depth stmts = .error .missingNode ↔ AnyHole (stmts.map .stmt)
  | [] => by
    rw [Stmt.scripts]
    exact iff_of_false (return_ne_missing []) TreeNode.not_anyHole_nil
  | stmt :: stmts => by
    rw [Stmt.scripts, bind_eq_missing_iff fun _ => map_eq_missing_iff,
      stmt.script_eq_missing_iff depth, Stmt.scripts_eq_missing_iff depth stmts]
    simp

end

/-! ## Classes and programs -/

/-- Arguments for the base count only if it is called. -/
theorem Constructor.superScripts_eq_missing_iff (init : Constructor) :
    init.superScripts = .error .missingNode ↔
      AnyHole (if init.callsSuper then init.superArgs.map .exp else []) := by
  rw [Constructor.superScripts]
  split
  · exact Exp.scripts_eq_missing_iff init.superArgs
  · exact iff_of_false (return_ne_missing []) TreeNode.not_anyHole_nil

theorem ClassDef.initLines_eq_missing_iff (classDef : ClassDef) (depth : Nat) :
    classDef.initLines depth = .error .missingNode ↔ AnyHole (classDef.init.body.map .stmt) := by
  rw [ClassDef.initLines, map_eq_missing_iff, Stmt.scripts_eq_missing_iff]

/-- The methods fail where one of their bodies does, whatever is made of it. -/
theorem Method.mapM_eq_missing_iff (methods : List Method) (depth : Nat)
    (render : Method → List String → String) :
    (methods.mapM fun method => do
        let body ← Stmt.scripts depth method.body
        return render method body) = .error .missingNode ↔
      AnyHole (methods.flatMap fun method => method.body.map .stmt) := by
  rw [ClassLang.mapM_eq_missing_iff, TreeNode.anyHole_flatMap]
  simp only [map_eq_missing_iff, Stmt.scripts_eq_missing_iff]

/-- A class fails for both targets on the same holes. -/
theorem ClassDef.script_eq_missing_iff (classDef : ClassDef) (target : Target) :
    classDef.script target = .error .missingNode ↔ AnyHole classDef.nodes := by
  rw [ClassDef.nodes, TreeNode.anyHole_append, TreeNode.anyHole_append, or_assoc,
    ← classDef.init.superScripts_eq_missing_iff]
  cases target with
  | es5 =>
    rw [ClassDef.script, ClassDef.functionScript, ← classDef.initLines_eq_missing_iff 1,
      ← Method.mapM_eq_missing_iff classDef.methods 1]
    exact bind_eq_missing_iff fun _ => bind_eq_missing_iff fun _ => map_eq_missing_iff
  | es6 =>
    rw [ClassDef.script, ClassDef.declarationScript, ← classDef.initLines_eq_missing_iff 2,
      ← Method.mapM_eq_missing_iff classDef.methods 2]
    exact bind_eq_missing_iff fun _ => bind_eq_missing_iff fun _ => map_eq_missing_iff

/-- A program has no script exactly if there is a hole in what its script is made of. -/
theorem Program.script_eq_missing_iff (program : Program) (target : Target) :
    program.script target = .error .missingNode ↔ AnyHole program.nodes := by
  rw [Program.script, bind_eq_missing_iff fun _ => map_eq_missing_iff, mapM_eq_missing_iff,
    Stmt.scripts_eq_missing_iff, Program.nodes, TreeNode.anyHole_append, TreeNode.anyHole_flatMap]
  simp only [ClassDef.script_eq_missing_iff]

/-- A program has no script exactly when there is a hole at one of its positions,
for both targets alike.  Then the error says that a node is missing, and there is
no text.  A program that was read has a script. -/
theorem script_fails_iff_visited_hole (program : Program) :
    ((∃ error, program.script .es5 = .error error) ↔
        ∃ error, program.script .es6 = .error error) ∧
      ∀ target,
        ((∃ error, program.script target = .error error) ↔
          ∃ node, program.Visits node ∧ node.isHole = true) ∧
        (∀ error, program.script target = .error error →
          error = .missingNode ∧ error.message = "unhandled AST node <nil>" ∧
            (program.script target).toOption.getD "" = "") ∧
        ∀ source name, Program.ofSource source name = .ok program →
          ∃ script, CompiledUnit.ofSource target name source = .ok ⟨⟨name, script⟩, program⟩ := by
  have hfails (target : Target) :
      (∃ error, program.script target = .error error) ↔ AnyHole program.nodes := by
    rw [← program.script_eq_missing_iff target]
    constructor
    · rintro ⟨⟨⟩, heq⟩
      exact heq
    · intro heq
      exact ⟨_, heq⟩
  constructor
  · rw [hfails .es5, hfails .es6]
  intro target
  refine ⟨?_, ?_, ?_⟩
  · rw [hfails target, program.exists_visited_hole_iff]
  · rintro ⟨⟩ heq
    rw [heq]
    exact ⟨rfl, rfl, rfl⟩
  · intro source name hread
    obtain ⟨script, hscript⟩ :=
      Program.exists_script_eq_ok (Program.isWellFormed_of_ofSource hread) target
    exact ⟨script, CompiledUnit.ofSource_eq_ok hread hscript⟩

/-- Holes in the type of a field and in arguments that are not passed do no harm,
the missing operator in a method does. -/
theorem script_fails_iff_visited_hole_operator :
    ∃ program : Program,
      program = ⟨[⟨"A", none, [⟨.missing, "f"⟩], ⟨[], false, [.missing], [.returnNone]⟩,
        [⟨"m", .missing, [], [.returnValue (.binary .this .missing (.name "f"))]⟩]⟩], []⟩ ∧
      program.script .es5 = .error .missingNode ∧
      (∃ node, program.Visits node ∧ node.isHole = true) ∧
      (program.script .es6).toOption.getD "" = "" ∧
      ∃ unit, CompiledUnit.ofSource .es6 "a.cls" "return;\nif (x) y;" = .ok unit := by
  refine ⟨_, rfl, rfl, ?_, ?_, ?_⟩
  · exact ((script_fails_iff_visited_hole _).2 .es5).1.mp ⟨.missingNode, rfl⟩
  · exact (((script_fails_iff_visited_hole _).2 .es6).2.1 .missingNode rfl).2.2
  · have hread : Program.ofSource "return;\nif (x) y;" "a.cls" =
        .ok ⟨[], [.returnNone, .ifThen (.name "x") (.expression (.name "y"))]⟩ :=
      Program.ofSource_of_source_eq (by decide) (by decide) "a.cls"
    obtain ⟨script, hunit⟩ := ((script_fails_iff_visited_hole _).2 .es6).2.2 _ _ hread
    exact ⟨_, hunit⟩

end ClassLang
