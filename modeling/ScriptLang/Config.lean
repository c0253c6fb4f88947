import ScriptLang.Diagnostic.Json

/-!
# Configuration

The settings of the interpreter, which are read from a JSON document. A setting that the document
does not mention has its default; a setting that does not exist is refused.

## Main definitions

* `Config`: the settings
* `Config.ofDocument?`: the settings in a document
-/

namespace ScriptLang

/-- The settings of the interpreter. -/
structure Config where
  /-- The directories in which modules are searched, in order. -/
  moduleRoots : List String := [".", "./lib", "./modules"]
  /-- How many calls and loads can be in progress at once. -/
  maxCallDepth : Nat := 2000
  /-- Whether printed lines are written at once. -/
  echoPrint : Bool := true
  deriving DecidableEq, Repr, Inhabited

namespace Config

/-- The settings, in order. -/
def fieldNames : List String := ["module_roots", "max_call_depth", "echo_print"]

/-- The bound of the number of calls: it has 64 bits. -/
def depthBound : Nat := UInt64.size

/-- A setting, or its default if it is not mentioned. -/
def field? {α : Type} (fields : List (String × Json)) (name : String) (default : α)
    (read : Json → Option α) : Option α :=
  match findEntry name fields with
  | none => some default
  | some value => read value

/-- The settings in a record: an object, or an array of the first settings in order. -/
def ofJson? (j : Json) : Option Config := do
  let fields ← j.fields? fieldNames
  let defaults : Config := {}
  if Json.areDistinct fieldNames fields && fields.all (fieldNames.contains ·.1) then
    return {
      moduleRoots := ← field? fields "module_roots" defaults.moduleRoots
        fun value => value.items?.bind (·.mapM Json.text?)
      maxCallDepth := ← field? fields "max_call_depth" defaults.maxCallDepth
        (·.natBelow? depthBound)
      echoPrint := ← field? fields "echo_print" defaults.echoPrint Json.bool? }
  else none

/-- The settings in a document. -/
def ofDocument? (document : String) : Option Config := (Json.parse? document).bind ofJson?

end Config

end ScriptLang
