import ScriptLang.Config
import ScriptLang.File.Search
import ScriptLang.Session

/-!
# Scripts

Running the program in a file with the settings in another. What the program printed is written when
it ends, however it ends.

## Main definitions

* `StartFailure`: why nothing was run
* `Config.load`: the settings that are in force in a directory
* `Script.run`: run the program in a file
-/

namespace ScriptLang

/-- Why nothing was run. -/
inductive StartFailure where
  | unreadable (path : Path) (why : FileError)
  | invalidConfig (path : Path)
  deriving DecidableEq, Repr

/-- How the reason is spoken of. -/
def StartFailure.message : StartFailure → String
  | unreadable path why => s!"cannot read {path}: {why.text}"
  | invalidConfig path => s!"invalid configuration in {path}"

namespace Config

/-- The name of the document with the settings for a directory. -/
def fileName : String := "zen.json"

/-- The settings in a file. -/
def ofFile (tree : FileTree) (path : Path) : Except StartFailure Config :=
  match tree.read path with
  | .error why => .error (.unreadable path why)
  | .ok text =>
    match ofDocument? text with
    | some config => .ok config
    | none => .error (.invalidConfig path)

/-- The settings in force: those in the file asked for, else those in the document of the directory,
else the defaults. -/
def load (tree : FileTree) (directory : Path) (file : Option Path) : Except StartFailure Config :=
  match file with
  | some path => ofFile tree path
  | none =>
    let path := directory.join fileName
    if tree.isFile path then ofFile tree path else .ok {}

/-- What does not change in a session with these settings. -/
def setting (config : Config) (tree : FileTree) : Setting :=
  ⟨config.maxCallDepth, tree.resolver config.moduleRoots⟩

/-- The machine at the start of a session with these settings. -/
def machine (config : Config) : Machine := { output := { echo := config.echoPrint } }

end Config

namespace Session

/-- Run a computation and then write the lines held back, however it ends. -/
def perform {α : Type} (m : Machine) (body : Eval α) : Except Diagnostic α × Machine :=
  let flushed (m : Machine) : Machine := { m with output := m.output.flush }
  match body m with
  | .ok a m => (.ok a, flushed m)
  | .error d m => (.error d, flushed m)

end Session

/-- A script that was run. -/
structure Script where
  source : SourceUnit
  /-- The value of the program, or the fault it ended with. -/
  result : Except Diagnostic Value
  /-- The machine afterwards. -/
  machine : Machine

/-- Run the program in a file. Its unit has the name of the path as it was given. -/
def Script.run (tree : FileTree) (config : Config) (path : Path) : Except StartFailure Script :=
  match tree.read path with
  | .error why => .error (.unreadable path why)
  | .ok text =>
    let source : SourceUnit := ⟨path, text⟩
    let (result, machine) := Session.perform config.machine do
      Session.evaluate (config.setting tree) source (← Session.newRoot)
    .ok ⟨source, result, machine⟩

end ScriptLang
