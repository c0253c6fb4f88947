import ScriptLang.Diagnostic.Fault
import ScriptLang.Table

/-!
# The registry of modules

Which modules have been loaded and which are being loaded. A module is known by its key: it is loaded
once, and an attempt to load it while it is being loaded is a cycle.

## Main definitions

* `Registry`: an entry for each key that is loading or loaded, and the loads in progress
* `Registry.start?`: begin a load, or find that none is needed
* `Registry.complete`, `Registry.abort`: end a load, with its module or without
* `LoadEvent`: what is reported to whoever follows the loads of a session
-/

namespace ScriptLang

/-- How far a module is. -/
inductive LoadState where
  | notLoaded
  | loading
  | loaded
  deriving DecidableEq, Repr

/-- What is known about a key. -/
inductive LoadEntry (μ : Type) where
  | loading
  | loaded (m : μ)

/-- A load in progress: its key, and the name it was asked for by. -/
structure PendingLoad where
  key : String
  name : String
  deriving DecidableEq, Repr

/-- What happens to a load, as it is reported to whoever follows a session. -/
inductive LoadEvent (μ : Type) where
  /-- The module has a key that is not known: the evaluation of its text begins. -/
  | began (key text : String)
  /-- The evaluation has succeeded, and the key has its module from now on. -/
  | completed (key : String) (m : μ)
  /-- The evaluation has failed. -/
  | aborted (key : String)
  /-- The module was there already. -/
  | reused (key : String) (m : μ)
  /-- The module is being evaluated, so to load it would be a cycle. -/
  | refused (key : String)
  deriving DecidableEq

/-- The loads of a session, finished and in progress; `μ` stands for modules. -/
structure Registry (μ : Type) where
  entries : Table (LoadEntry μ) := Table.empty
  /-- The loads in progress, outermost first. -/
  pending : List PendingLoad := []

/-- How a load begins. -/
inductive LoadStart (μ : Type) where
  /-- The module is there already. -/
  | cached (m : μ)
  /-- The load is in progress from now on. -/
  | started (r : Registry μ)

namespace Registry

variable {μ : Type}

instance : Inhabited (Registry μ) := ⟨{}⟩

/-- How far the module with a key is. -/
def state (r : Registry μ) (key : String) : LoadState :=
  match r.entries.get? key with
  | none => .notLoaded
  | some .loading => .loading
  | some (.loaded _) => .loaded

/-- The module with a key, if it is loaded. -/
def get? (r : Registry μ) (key : String) : Option μ :=
  match r.entries.get? key with
  | some (.loaded m) => some m
  | _ => none

/-- The names on the way from the load in progress of a key back to the same key. -/
def cycle (r : Registry μ) (key name : String) : List String :=
  (r.pending.dropWhile (·.key != key)).map PendingLoad.name ++ [name]

/-- Begin to load the module with a key, asked for by a name. -/
def start? (r : Registry μ) (key name : String) : Except Fault (LoadStart μ) :=
  match r.entries.get? key with
  | some (.loaded m) => .ok (.cached m)
  | some .loading => .error (.circularImport (r.cycle key name))
  | none => .ok (.started ⟨r.entries.insert key .loading, r.pending ++ [⟨key, name⟩]⟩)

/-- Loads in progress without the innermost one of a key. -/
def withoutPending (key : String) (pending : List PendingLoad) : List PendingLoad :=
  (pending.reverse.eraseP (·.key = key)).reverse

/-- End the load of a key with its module. -/
def complete (r : Registry μ) (key : String) (m : μ) : Registry μ :=
  ⟨r.entries.insert key (.loaded m), withoutPending key r.pending⟩

/-- End the load of a key without a module, so that it can be tried again. -/
def abort (r : Registry μ) (key : String) : Registry μ :=
  ⟨r.entries.erase key, withoutPending key r.pending⟩

/-- The keys of all loaded modules, in the order in which their loads began. -/
def loadedKeys (r : Registry μ) : List String :=
  r.entries.names.filter fun key => r.state key = .loaded

end Registry

end ScriptLang
