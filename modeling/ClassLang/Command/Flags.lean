/-!
# Flags

Arguments start with flags.  A flag has one or two dashes in front, and its
value is after an equals sign or is the next argument; a switch takes a value
only after an equals sign.  The flags end at the first argument that is none,
or after two dashes alone.
-/

namespace ClassLang

inductive FlagType where
  | text
  | switch
  deriving DecidableEq

/-- The flags that were given, last one first, and the arguments after them. -/
structure Flags where
  texts : List (String × String)
  switches : List (String × Bool)
  arguments : List String

namespace Flags

def readSwitch? : String → Option Bool
  | "1" | "t" | "T" | "TRUE" | "true" | "True" => some true
  | "0" | "f" | "F" | "FALSE" | "false" | "False" => some false
  | _ => none

/-- The name of a flag, and its value if that is given with it.  The result is
`none` if the argument is no flag. -/
def splitFlag? (argument : String) : Option (List Char × Option String) :=
  let split (name : List Char) : List Char × Option String :=
    match name.dropWhile (· != '=') with
    | [] => (name, none)
    | _ :: value => (name.takeWhile (· != '='), some (String.ofList value))
  match argument.toList with
  | '-' :: '-' :: name => some (split name)
  | '-' :: c :: name => some (split (c :: name))
  | _ => none

def addText (flags : Flags) (name value : String) : Flags :=
  { flags with texts := (name, value) :: flags.texts }

def addSwitch (flags : Flags) (name : String) (value : Bool) : Flags :=
  { flags with switches := (name, value) :: flags.switches }

/-- Reads arguments after the given flags, or returns nothing if a flag is
unknown or lacks a proper value. -/
def read? (types : List (String × FlagType)) (flags : Flags) : List String → Option Flags
  | [] => some { flags with arguments := [] }
  | argument :: rest =>
    if argument == "--" then some { flags with arguments := rest }
    else match splitFlag? argument with
      | none => some { flags with arguments := argument :: rest }
      | some (chars, value) =>
        let name := String.ofList chars
        match types.lookup name, value with
        | none, _ => none
        | some .switch, none => read? types (flags.addSwitch name true) rest
        | some .switch, some value =>
          match readSwitch? value with
          | some value => read? types (flags.addSwitch name value) rest
          | none => none
        | some .text, some value => read? types (flags.addText name value) rest
        | some .text, none =>
          match rest with
          | [] => none
          | value :: rest => read? types (flags.addText name value) rest

/-- Every command knows the flag for help. -/
def ofArguments? (types : List (String × FlagType)) (arguments : List String) : Option Flags :=
  read? ([("help", .switch), ("h", .switch)] ++ types) ⟨[], [], []⟩ arguments

def text (flags : Flags) (name fallback : String) : String :=
  (flags.texts.lookup name).getD fallback

def switch (flags : Flags) (name : String) : Bool :=
  (flags.switches.lookup name).getD false

def asksForHelp (flags : Flags) : Bool :=
  flags.switch "help" || flags.switch "h"

/-- The first argument after the flags, where nothing counts as empty. -/
def first (flags : Flags) : String :=
  flags.arguments.headD ""

end Flags

end ClassLang
