import ScriptLang.Diagnostic.Basic
import ScriptLang.Machine.Output
import ScriptLang.Machine.Store
import ScriptLang.Module.Registry
import ScriptLang.Module.Resolver

/-!
# The machine

Everything that a run changes. A computation gives a value or ends with a diagnostic, and in both
cases leaves a machine: what was done before a fault stays done.

## Main definitions

* `Machine`: store, registry, output, and what is being evaluated
* `Machine.beginLoad`, `Machine.completeLoad`, `Machine.abortLoad`: the steps of a load
* `Eval`: a computation on a machine
* `Eval.inFrame`, `Eval.inUnit`: a computation one frame further in, or for another unit; both put
  back what they change, however the computation ends
-/

namespace ScriptLang

/-- The unit name of text that has no name of its own. -/
def inputName : String := "<input>"

/-- The state of a session. -/
structure Machine where
  store : Store := {}
  registry : Registry ModuleRef := {}
  output : Output
  /-- The name of the unit being evaluated. -/
  unit : String := inputName
  /-- How many calls and loads are in progress. -/
  depth : Nat := 0
  /-- What has happened to the loads, the latest first. No program sees it. -/
  journal : List (LoadEvent ModuleRef) := []

instance : Inhabited Machine := ⟨{ output := default }⟩

namespace Machine

/-- Enter in the journal what has happened to a load. -/
def record (m : Machine) (event : LoadEvent ModuleRef) : Machine :=
  { m with journal := event :: m.journal }

/-- A load begins; the registry is the one in which it is in progress. -/
def beginLoad (m : Machine) (found : ResolvedModule) (registry : Registry ModuleRef) : Machine :=
  { m with registry := registry }.record (.began found.key found.text)

/-- A load ends with its module. -/
def completeLoad (m : Machine) (key : String) (ref : ModuleRef) : Machine :=
  { m with registry := m.registry.complete key ref }.record (.completed key ref)

/-- A load ends without a module. -/
def abortLoad (m : Machine) (key : String) : Machine :=
  { m with registry := m.registry.abort key }.record (.aborted key)

end Machine

/-- A computation on a machine. -/
abbrev Eval (α : Type) := EStateM Diagnostic Machine α

namespace Eval

variable {α : Type}

/-- End with a fault whose place is not known. -/
@[inline] def fail (fault : Fault) : Eval α := throw fault.report

/-- End with a fault at a place. -/
@[inline] def failAt (fault : Fault) (span : Span) : Eval α := throw (fault.at span)

/-- A result, or the fault for which there is none. -/
@[inline] def ofExcept (result : Except Fault α) : Eval α :=
  match result with
  | .ok a => pure a
  | .error fault => fail fault

/-- A result, or the fault for which there is none, at a place. -/
@[inline] def ofExceptAt (span : Span) (result : Except Fault α) : Eval α :=
  match result with
  | .ok a => pure a
  | .error fault => failAt fault span

/-- Change the diagnostic that a computation ends with. -/
@[inline] def mapDiagnostic (f : Diagnostic → Diagnostic) (body : Eval α) : Eval α := fun m =>
  match body m with
  | .ok a m => .ok a m
  | .error d m => .error (f d) m

/-- Run a computation with one more call or load in progress. -/
@[inline] def inFrame (body : Eval α) : Eval α := fun m =>
  let depth := m.depth
  match body { m with depth := depth + 1 } with
  | .ok a m => .ok a { m with depth := depth }
  | .error d m => .error d { m with depth := depth }

/-- Run a computation on behalf of a unit. Its diagnostics come from that unit, if from no other. -/
@[inline] def inUnit (unit : String) (body : Eval α) : Eval α := fun m =>
  let previous := m.unit
  match body { m with unit := unit } with
  | .ok a m => .ok a { m with unit := previous }
  | .error d m => .error (d.withUnit unit) { m with unit := previous }

/-- Look at the store. -/
@[inline] def readStore (f : Store → α) : Eval α := return f (← get).store

/-- The name of the unit being evaluated. -/
@[inline] def unitName : Eval String := return (← get).unit

/-- Change the store. -/
@[inline] def modifyStore (f : Store → Store) : Eval Unit := modify fun m => { m with store := f m.store }

/-- Change the store and give something back. -/
@[inline] def withStore (f : Store → α × Store) : Eval α := modifyGet fun m =>
  let (a, store) := f m.store
  (a, { m with store := store })

/-- Print a line. -/
@[inline] def print (line : String) : Eval Unit := modify fun m => { m with output := m.output.emit line }

end Eval

end ScriptLang
