import ClassLang.Command.Flags
import ClassLang.Manifest.Basic

/-!
# Commands

The program has six commands.  The first argument names the command, and what
comes after it are the flags and arguments of the command.
-/

namespace ClassLang

inductive Command where
  /-- Write a manifest. -/
  | init (manifest : Manifest)
  /-- Build the module, or list its programs if `dump` is set. -/
  | build (requested target : String) (dump : Bool)
  | tokens (path : String)
  | listing (path : String)
  | outline (path : String)
  /-- Build the module whenever a source changes. -/
  | watch (requested target : String)
  deriving DecidableEq

inductive ArgumentError where
  | noModuleName
  | noFile
  | unknownCommand (name : String)
  /-- Help was asked for, or the flags make no sense. -/
  | usage
  deriving DecidableEq

namespace ArgumentError

/-- What goes to the log. -/
def log : ArgumentError → String
  | noModuleName => "error with classjs: no module name provided\n"
  | noFile => "error with classjs: no file provided\n"
  | unknownCommand name => "error with classjs: No help topic for '" ++ name ++ "'\n"
  | usage => ""

end ArgumentError

namespace Command

def defaultTarget : String := "es5"

def readFlags (types : List (String × FlagType)) (arguments : List String) :
    Except ArgumentError Flags :=
  match Flags.ofArguments? types arguments with
  | none => .error .usage
  | some flags => if flags.asksForHelp then .error .usage else .ok flags

def initOf (arguments : List String) : Except ArgumentError Command := do
  let flags ← readFlags [("version", .text), ("extension", .text)] arguments
  if flags.first.isEmpty then throw .noModuleName
  return .init ⟨flags.first, flags.text "version" Manifest.defaultVersion,
    flags.text "extension" Manifest.defaultExtension⟩

def buildOf (arguments : List String) : Except ArgumentError Command := do
  let flags ← readFlags [("output", .text), ("target", .text), ("dump", .switch)] arguments
  return .build (flags.text "output" "") (flags.text "target" defaultTarget)
    (flags.switch "dump")

def watchOf (arguments : List String) : Except ArgumentError Command := do
  let flags ← readFlags [("output", .text), ("target", .text)] arguments
  return .watch (flags.text "output" "") (flags.text "target" defaultTarget)

/-- A command on a single file. -/
def fileCommandOf (command : String → Command) (arguments : List String) :
    Except ArgumentError Command := do
  let flags ← readFlags [] arguments
  if flags.first.isEmpty then throw .noFile
  return command flags.first

def ofArguments (arguments : List String) : Except ArgumentError Command := do
  let flags ← readFlags [] arguments
  match flags.arguments with
  | [] => throw .usage
  | name :: arguments =>
    match name with
    | "init" => initOf arguments
    | "build" => buildOf arguments
    | "tokens" => fileCommandOf .tokens arguments
    | "ast" => fileCommandOf .listing arguments
    | "outline" => fileCommandOf .outline arguments
    | "watch" => watchOf arguments
    | "" | "help" | "h" => throw .usage
    | name => throw (.unknownCommand name)

end Command

end ClassLang
