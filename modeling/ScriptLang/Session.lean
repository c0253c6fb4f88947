import ScriptLang.Eval.Call

/-!
# Sessions

What can be asked of a machine from outside: to evaluate a unit in a scope, to call a value, to load a
module. Between two requests no call and no load is in progress, so each begins with all frames left.

## Main definitions

* `Session.evaluate`, `Session.run`: evaluate a unit, or a program that was read before
* `Session.call`, `Session.load`: call a value, load a module
* `Session.rebind`: rebind a name that must be bound
-/

namespace ScriptLang.Session

/-- Run a computation with the host that has the frames left. -/
@[inline] def withHost {α : Type} (setting : Setting) (body : Host → Eval α) : Eval α := do
  let depth := (← get).depth
  body (Host.withFrames setting (setting.maxFrames - depth))

/-- A new scope without a scope around it. -/
def newRoot : Eval ScopeId := Eval.withStore (·.newScope none Table.empty)

/-- A new scope inside another. -/
def newChild (scope : ScopeId) : Eval ScopeId := innerScope scope

/-- Evaluate a program in a scope, under the name of a unit. -/
def run (setting : Setting) (program : Program) (scope : ScopeId) (unit : String) : Eval Value :=
  withHost setting fun host => runProgram host program scope unit

/-- Evaluate the text of a unit in a scope. -/
def evaluate (setting : Setting) (source : SourceUnit) (scope : ScopeId) : Eval Value :=
  match Program.parse source with
  | .ok program => run setting program scope source.name
  | .error d => throw d

/-- Call a value. -/
def call (setting : Setting) (callee : Value) (args : List Value) (span : Span) : Eval Value :=
  withHost setting fun host => host.call callee args span

/-- The module with a name, loaded if it is not there yet. -/
def load (setting : Setting) (name : String) : Eval ModuleRef :=
  withHost setting fun host => host.load name

/-- The value of a name that must be bound, from a scope outwards. -/
def lookup (scope : ScopeId) (name : String) (span : Span) : Eval Value := do
  match ← Eval.readStore (·.lookup? scope name) with
  | some v => return v
  | none => Eval.failAt (.undefined name) span

/-- Rebind a name that must be bound, from a scope outwards. -/
def rebind (scope : ScopeId) (name : String) (v : Value) (span : Span) : Eval Unit := do
  match ← Eval.readStore (·.assignBound scope name v) with
  | .ok store => Eval.modifyStore fun _ => store
  | .error _ => Eval.failAt (.undefined name) span

end ScriptLang.Session
