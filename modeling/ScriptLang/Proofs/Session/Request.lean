import ScriptLang.Proofs.Eval.Run
import ScriptLang.Session

/-!
# Requests to a session

What a session does from its beginning is a list of requests, each of which changes the machine
whether it succeeds or fails. The resolver may be another one at every request, since the modules
that can be found may have changed in between.

## Main definitions

* `Request`, `Answer`: what can be asked of a session, and what is given back
* `Request.perform`: a request as the session performs it
* `Request.on`: a request with the calls and loads of any host
* `Machine.start`, `Session.after`: a new machine, and the machine after some requests

## Main results

* `Congruence.request`: requests on related hosts are related
* `RunClosed.perform`: what every step obeys holds across every request
* `Request.perform_eq_on`: a session performs a request with the frames that are left
-/

namespace ScriptLang

/-- A new machine. -/
def Machine.start (echo : Bool) : Machine := { output := { echo := echo } }

/-- What can be asked of a session. -/
inductive Request where
  /-- Read and evaluate a unit. -/
  | evaluate (source : SourceUnit) (scope : ScopeId)
  /-- Evaluate a program that was read before. -/
  | run (program : Program) (scope : ScopeId) (unit : String)
  | call (callee : Value) (args : List Value) (span : Span)
  | load (name : String)
  /-- Make a scope for units to come. -/
  | newRoot
  | newChild (scope : ScopeId)
  /-- Bind a name in a scope. -/
  | define (scope : ScopeId) (name : String) (v : Value)

/-- What a request gives back. -/
inductive Answer where
  | value (v : Value)
  | module (ref : ModuleRef)
  | scope (id : ScopeId)
  | done

namespace Request

/-- A request, as the session performs it. -/
def perform (setting : Setting) : Request → Eval Answer
  | evaluate source scope => do return .value (← Session.evaluate setting source scope)
  | run program scope unit => do return .value (← Session.run setting program scope unit)
  | call callee args span => do return .value (← Session.call setting callee args span)
  | load name => do return .module (← Session.load setting name)
  | newRoot => do return .scope (← Session.newRoot)
  | newChild scope => do return .scope (← Session.newChild scope)
  | define scope name v => do
    Eval.modifyStore (·.define scope name v)
    return .done

/-- A request whose calls and loads a host does. -/
def on (host : Host) : Request → Eval Answer
  | evaluate source scope =>
    match Program.parse source with
    | .ok program => do return .value (← runProgram host program scope source.name)
    | .error d => throw d
  | run program scope unit => do return .value (← runProgram host program scope unit)
  | call callee args span => do return .value (← host.call callee args span)
  | load name => do return .module (← host.load name)
  | newRoot => do return .scope (← Session.newRoot)
  | newChild scope => do return .scope (← Session.newChild scope)
  | define scope name v => do
    Eval.modifyStore (·.define scope name v)
    return .done

/-- A session performs a request with all the frames that are left. -/
theorem perform_eq_on (setting : Setting) (request : Request) (m : Machine) :
    request.perform setting m =
      request.on (Host.withFrames setting (setting.maxFrames - m.depth)) m := by
  cases request with
  | evaluate source scope =>
    rw [perform, on, Session.evaluate]
    cases Program.parse source with
    | ok program => rfl
    | error d => rfl
  | _ => rfl

end Request

/-- Requests on related hosts are related. -/
theorem Congruence.request {R : (α : Type) → Eval α → Eval α → Prop} {h h' : Host}
    (c : Congruence R) (hosts : Hosts R h h') (request : Request) :
    R Answer (request.on h) (request.on h') := by
  cases request with
  | evaluate source scope =>
    rw [Request.on, Request.on]
    cases Program.parse source with
    | ok program => exact c.bind (c.runProgram hosts _ _ _) fun _ => c.pure _
    | error d => exact c.throw d
  | run program scope unit => exact c.bind (c.runProgram hosts _ _ _) fun _ => c.pure _
  | call callee args span => exact c.bind (hosts.call _ _ _) fun _ => c.pure _
  | load name => exact c.bind (hosts.load _) fun _ => c.pure _
  | newRoot => exact c.bind (c.newScope _ _) fun _ => c.pure _
  | newChild scope => exact c.bind (c.newScope _ _) fun _ => c.pure _
  | define scope name v => exact c.bind (c.define _ _ _) fun _ => c.pure _

/-- What every step obeys holds across every request. -/
theorem RunClosed.perform {S : Machine → Machine → Prop} (h : RunClosed S) (setting : Setting)
    (request : Request) (m : Machine) : S m ((request.perform setting).after m) := by
  have hosts := h.hosts setting (setting.maxFrames - m.depth)
  rw [Eval.after, request.perform_eq_on setting m, ← Eval.after]
  exact h.toStepClosed.congruence.request hosts request m

/-- The machine after some requests, each made in the setting of its time. -/
def Session.after (history : List (Setting × Request)) (m : Machine) : Machine :=
  history.foldl (fun m (setting, request) => (request.perform setting).after m) m

/-- What every request preserves holds after every list of requests. -/
theorem Session.after_induction {P : Machine → Prop}
    (hstep : ∀ m setting request, P m → P ((Request.perform setting request).after m))
    (history : List (Setting × Request)) {m : Machine} (hm : P m) :
    P (Session.after history m) := by
  induction history generalizing m with
  | nil => exact hm
  | cons entry history ih => exact ih (hstep m entry.1 entry.2 hm)

end ScriptLang
