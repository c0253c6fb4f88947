import ScriptLang.Interactive.Input
import ScriptLang.Script

/-!
# Interactive sessions

A session evaluates one input after the other in the same scope. It shows every value but nil as a
literal and reports every fault against the input that was evaluated.

## Main definitions

* `LineLoop`: a session between two inputs
* `LineLoop.evaluate`: a session after one more input
* `LineLoop.run`: a session after the inputs that lines make up
* `LineLoop.output`, `LineLoop.errors`: what a session has written and reported
-/

namespace ScriptLang

/-- An interactive session between two inputs. -/
structure LineLoop where
  machine : Machine
  /-- The scope of all inputs. -/
  scope : ScopeId
  /-- The faults reported so far, in order. -/
  reports : Array String := #[]

namespace LineLoop

/-- A new session with the given settings. -/
def start (config : Config) : LineLoop :=
  let (scope, store) := config.machine.store.newScope none Table.empty
  ⟨{ config.machine with store := store }, scope, #[]⟩

/-- A session after one more input. -/
def evaluate (setting : Setting) (asJson : Bool) (loop : LineLoop) (input : String) : LineLoop :=
  let source : SourceUnit := ⟨inputName, input⟩
  let (result, machine) :=
    Session.perform loop.machine (Session.evaluate setting source loop.scope)
  match result with
  | .ok .nil => { loop with machine := machine }
  | .ok v =>
    { loop with machine := { machine with output := machine.output.write v.literalText } }
  | .error d =>
    { loop with machine := machine, reports := loop.reports.push (d.present asJson source) }

/-- A session after the inputs that lines make up. -/
def run (setting : Setting) (asJson : Bool) (loop : LineLoop) (lines : List String) : LineLoop :=
  (inputs lines).foldl (evaluate setting asJson) loop

/-- What a session has written. -/
def output (loop : LineLoop) : String := loop.machine.output.text

/-- What a session has reported. -/
def errors (loop : LineLoop) : String := Output.textOf loop.reports

/-- A session of which everything written and reported has been taken. -/
def taken (loop : LineLoop) : LineLoop :=
  let machine := loop.machine
  { loop with
    machine := { machine with output := { machine.output with written := #[] } }
    reports := #[] }

end LineLoop

end ScriptLang
