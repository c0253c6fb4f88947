import ScriptLang.Interactive.LineLoop
import ScriptLang.Interactive.Typing

/-!
# The command line

The command runs the script it is given, or without one an interactive session. Its arguments are
`[SCRIPT] [--json] [--config PATH]` in any order; after `--` there are no more options.

## Main definitions

* `Arguments`, `Arguments.ofList?`: what the command is asked to do
* `CommandLine.run`: what the command does
-/

namespace ScriptLang

/-- What the command is asked to do. -/
structure Arguments where
  /-- The script to run. -/
  script : Option Path := none
  /-- Whether faults are reported as JSON. -/
  json : Bool := false
  /-- The file with the settings. -/
  config : Option Path := none
  deriving DecidableEq, Repr, Inhabited

namespace Arguments

/-- Ask for a script, unless one is asked for already. -/
def withScript? (a : Arguments) (path : Path) : Option Arguments :=
  if a.script.isSome || path.isEmpty then none else some { a with script := some path }

/-- Ask for settings, unless some are asked for already. -/
def withConfig? (a : Arguments) (path : Path) : Option Arguments :=
  if a.config.isSome || path.isEmpty then none else some { a with config := some path }

/-- Ask for JSON, unless it is asked for already. -/
def withJson? (a : Arguments) : Option Arguments :=
  if a.json then none else some { a with json := true }

/-- Whether an argument is an option: it begins with a hyphen and is no hyphen alone. -/
def isOption (argument : String) : Bool :=
  argument.toList.head? = some '-' && argument != "-"

/-- What an option begins with that holds its value. -/
def configMark : List Char := "--config=".toList

/-- Read arguments, given what the ones before ask for. -/
def readFrom (a : Arguments) : List String → Option Arguments
  | [] => some a
  | "--" :: rest => rest.foldlM withScript? a
  | "--json" :: rest => a.withJson?.bind fun a => readFrom a rest
  | "--config" :: path :: rest =>
    if isOption path then none else (a.withConfig? path).bind fun a => readFrom a rest
  | argument :: rest =>
    if configMark.isPrefixOf argument.toList then
      (a.withConfig? (String.ofList (argument.toList.drop configMark.length))).bind
        fun a => readFrom a rest
    else if isOption argument then none
    else (a.withScript? argument).bind fun a => readFrom a rest

/-- What arguments ask for, if they make sense. -/
def ofList? (arguments : List String) : Option Arguments := readFrom {} arguments

end Arguments

/-- What a command leaves: its exit code and what it has written. -/
structure Exit where
  code : Nat
  output : String := ""
  errors : String := ""
  deriving DecidableEq, Repr, Inhabited

namespace CommandLine

/-- How the command is used. -/
def usage : String := "usage: [SCRIPT] [--json] [--config PATH]\n"

/-- The end of a command that is used in a wrong way. -/
def misuse : Exit := { code := 2, errors := usage }

/-- The end of a command that runs nothing. -/
def failure (why : StartFailure) : Exit := { code := 1, errors := s!"error: {why.message}\n" }

/-- Run the script in a file. -/
def runScript (tree : FileTree) (config : Config) (asJson : Bool) (path : Path) : Exit :=
  match Script.run tree config path with
  | .error why => failure why
  | .ok script =>
    let output := script.machine.output.text
    match script.result with
    | .ok _ => { code := 0, output := output }
    | .error d => { code := 1, output := output, errors := d.present asJson script.source ++ "\n" }

/-- Run an interactive session on a text. -/
def runSession (tree : FileTree) (config : Config) (asJson : Bool) (input : String) : Exit :=
  let loop := (LineLoop.start config).run (config.setting tree) asJson (typedLines input)
  { code := 0, output := loop.output, errors := loop.errors }

/-- What the command does. The settings come first. -/
def run (tree : FileTree) (arguments : List String) (input : String) : Exit :=
  match Arguments.ofList? arguments with
  | none => misuse
  | some a =>
    match Config.load tree "." a.config with
    | .error why => failure why
    | .ok config =>
      match a.script with
      | some path => runScript tree config a.json path
      | none => runSession tree config a.json input

end CommandLine

end ScriptLang
