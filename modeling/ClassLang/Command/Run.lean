import ClassLang.Build.Output
import ClassLang.Command.Basic
import ClassLang.Manifest.Store
import ClassLang.Syntax.Listing
import ClassLang.Syntax.Outline

/-!
# Running commands

A command runs in a session: it looks at files, writes files, prints and logs,
one after the other.  If a step fails, the session stays as it was reached, with
all that was written and printed before, and the error is shown after that.
-/

namespace ClassLang

def Token.report (token : Token) : String :=
  token.span.first.text ++ "\t" ++ token.kind.label ++ "\t" ++ Text.quote token.lexeme ++ "\n"

def Program.report (program : Program) : String :=
  program.listing.render 0 ++ "\n"

def CompiledUnit.report (unit : CompiledUnit) : String :=
  "// " ++ unit.name ++ "\n" ++ unit.program.report

namespace Workspace

/-- The text of the file that a command works on.  Its extension has to be that
of the module around it. -/
def sourceText (workspace : Workspace) (path : String) : Except BuildError String := do
  let manifest ← workspace.manifestOrFallback "."
  let contents ← workspace.readSource path manifest.sourceExtension
  return Text.decode contents

def sourceProgram (workspace : Workspace) (path : String) : Except BuildError Program := do
  let text ← workspace.sourceText path
  (Program.ofSource text path).mapError BuildError.source

end Workspace

/-- The files as they are, and what was printed and logged so far. -/
structure Session where
  workspace : Workspace
  printed : String
  log : String

/-- A session in which nothing has happened yet. -/
def Session.start (workspace : Workspace) : Session :=
  ⟨workspace, "", ""⟩

abbrev Action : Type → Type :=
  EStateM BuildError Session

namespace Action

/-- Take a step in the workspace of the session. -/
def onFiles {α : Type} (step : FileStep α) : Action α := fun session =>
  match step session.workspace with
  | .ok value reached => .ok value { session with workspace := reached }
  | .error error reached => .error error { session with workspace := reached }

def look {α : Type} (query : Workspace → Except BuildError α) : Action α :=
  onFiles (FileStep.look query)

def print (text : String) : Action Unit :=
  modify fun session => { session with printed := session.printed ++ text }

def addToLog (text : String) : Action Unit :=
  modify fun session => { session with log := session.log ++ text }

/-- Build the module in the current directory and tell where the script went. -/
def build (manifest : Manifest) (target : Target) (requested : String) : Action Unit := do
  let path ← onFiles (Workspace.build target "." requested manifest)
  addToLog ("wrote " ++ path ++ "\n")

end Action

namespace BuildError

/-- What is printed when a run or a build that is watched fails. -/
def notice (error : BuildError) : String :=
  error.message ++ "\n"

end BuildError

namespace Command

open ClassLang.Action

/-- Run a command, up to the first build if it is to watch. -/
def run : Command → Action Unit
  | init manifest => onFiles (Workspace.writeManifest "." manifest)
  | build requested target dump => do
    let manifest ← look (·.readManifest ".")
    let target ← look fun _ => Target.named target
    if dump then
      let units ← look (·.compileDirectory target "." manifest)
      units.forM fun unit => print unit.report
    else Action.build manifest target requested
  | tokens path => do
    let text ← look (·.sourceText path)
    let tokens ← look fun _ => (tokenize text path).mapError BuildError.source
    tokens.forM fun token => print token.report
  | listing path => do
    let program ← look (·.sourceProgram path)
    print program.report
  | outline path => do
    let program ← look (·.sourceProgram path)
    program.classes.forM fun classDef => print classDef.outline
  | watch requested target => do
    let manifest ← look (·.readManifest ".")
    let target ← look fun _ => Target.named target
    tryCatch (Action.build manifest target requested) fun error => print error.notice

def usageText : String :=
  "usage: classjs init <name> | build | tokens <file> | ast <file> | outline <file> | watch\n"

end Command

/-- How a run of the program ends. -/
inductive Ending where
  | done
  | failed (error : BuildError)
  | refused (error : ArgumentError)
  deriving DecidableEq

namespace Ending

def exitCode : Ending → Nat
  | done => 0
  | failed _ => 1
  | refused .usage => 0
  | refused _ => 1

/-- What is printed at the end. -/
def notice : Ending → String
  | done => ""
  | failed error => error.notice
  | refused .usage => Command.usageText
  | refused _ => ""

/-- What is logged at the end. -/
def log : Ending → String
  | refused error => error.log
  | _ => ""

end Ending

/-- A run that has ended, and the session as it was left. -/
structure Outcome where
  session : Session
  ending : Ending

namespace Outcome

/-- All that went to standard output. -/
def output (outcome : Outcome) : String :=
  outcome.session.printed ++ outcome.ending.notice

def log (outcome : Outcome) : String :=
  outcome.session.log ++ outcome.ending.log

end Outcome

/-- A run of the program with the given arguments. -/
def Workspace.runProgram (workspace : Workspace) (arguments : List String) : Outcome :=
  match Command.ofArguments arguments with
  | .error error => ⟨.start workspace, .refused error⟩
  | .ok command =>
    match command.run (.start workspace) with
    | .ok () session => ⟨session, .done⟩
    | .error error session => ⟨session, .failed error⟩

end ClassLang
