import ScriptLang.Diagnostic.Basic
import ScriptLang.Module.Basic

/-!
# Resolvers

A resolver finds the text of a module by the name it is loaded by, and the key that tells it from
other modules. Names with one key stand for one module.

## Main definitions

* `Resolver`: the search for a module
* `Resolver.ignoringCase`: a search in which several names have one key
* `Library`: a table of module texts, as a resolver
-/

namespace ScriptLang

/-- A module that was found: its key and its text. -/
structure ResolvedModule where
  key : String
  text : String
  deriving DecidableEq, Repr

/-- The search for a module by its name. Whoever sets up a session chooses it, and with it the reports
of a search that fails. -/
abbrev Resolver := String → Except Diagnostic ResolvedModule

/-- The same search, but names that differ in the case of ASCII letters only have one key. A mark tells
the keys from the names. -/
def Resolver.ignoringCase (mark : String) (resolve : Resolver) : Resolver := fun name => do
  let found ← resolve name
  return { found with key := mark ++ String.ofList (found.key.toList.map Char.toLower) }

/-- Module texts by name. -/
abbrev Library := Table String

/-- The search in a library. A name may end as source files do; the key is the name without that. -/
def Library.resolve (l : Library) : Resolver := fun name =>
  let key := withoutSuffix sourceSuffix name
  match l.get? key with
  | some text => .ok ⟨key, text⟩
  | none => .error (Fault.moduleNotFound name .unregistered).report

end ScriptLang
