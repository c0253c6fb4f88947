import ScriptLang.Eval.Statement
import ScriptLang.Module.Resolver
import ScriptLang.Syntax.Parser
import ScriptLang.Value.Builtin

/-!
# Calls and loads

A call runs the body of a function in a new scope inside the one that the function was made in. A load
evaluates a unit in a scope of its own and keeps what it bound. Both take one frame for as long as they
run, and the number of frames is bounded. Code in a frame is given a host with one frame less, so the
recursion of calls and loads follows the number of frames left.

## Main definitions

* `invoke`, `instantiate`, `applyValue`: call a function, a class, any value
* `runProgram`, `loadModule`: evaluate a unit, and load one unless it is there
* `Host.withFrames`: the host with a given number of frames left
-/

namespace ScriptLang

/-- A call with the wrong number of arguments; `implicit` counts the receiver. A method without
parameters has nothing to hold the receiver, which then counts as an argument given. -/
def arityFault (f : Closure) (implicit given : Nat) : Fault :=
  if implicit ≤ f.arity then .arity f.name (f.arity - implicit) given
  else .arity f.name f.arity (given + implicit)

/-- The bindings of parameters to arguments, in order. -/
def bindParams (params : List Ident) (args : List Value) : Table Value :=
  Table.ofList ((params.map Ident.name).zip args)

/-- Call a function. The receiver of a method, if there is one, comes before the arguments. -/
def invoke (host : Host) (f : Closure) (receiver : Option Value) (args : List Value) (span : Span) :
    Eval Value := do
  let values := receiver.toList ++ args
  if values.length ≠ f.arity then
    Eval.failAt (arityFault f receiver.toList.length args.length) span
  else
    let scope ← Eval.withStore (·.newScope (some f.scope) (bindParams f.function.params values))
    match ← Eval.inUnit f.origin (runStmts host scope f.function.body.stmts .nil) with
    | .returned v => return v
    | .finished _ => return .nil

/-- The name of the method that sets up a new object. -/
def initName : String := "__init__"

/-- Make an object of a class and set it up. -/
def instantiate (host : Host) (c : Class) (args : List Value) (span : Span) : Eval Value := do
  let fields ← Eval.withStore (·.newScope none Table.empty)
  let object := Value.object ⟨c, fields⟩
  match c.methods.get? initName with
  | some init =>
    let _ ← invoke host init (some object) args span
    return object
  | none =>
    if args.isEmpty then
      return object
    else
      Eval.failAt (.arity c.name 0 args.length) span

/-- Call a built-in. -/
def Builtin.run (b : Builtin) (args : List Value) : Eval Value := do
  let (v, line) ← Eval.ofExcept (b.outcome? args)
  match line with
  | some line => Eval.print line
  | none => pure ()
  return v

/-- Call a value. -/
def applyValue (host : Host) (callee : Value) (args : List Value) (span : Span) : Eval Value :=
  match callee with
  | .function f => invoke host f none args span
  | .method m => invoke host m.method (some (.object m.receiver)) args span
  | .builtin b => Eval.mapDiagnostic (·.withSpan span) (b.run args)
  | .ofClass c => instantiate host c args span
  | other => Eval.failAt (.notCallable other.typeName) span

/-- Evaluate a program in a scope. The value is that of its last statement, or what a `return` outside
of any function gives back. -/
def runProgram (host : Host) (program : Program) (scope : ScopeId) (unit : String) : Eval Value := do
  match ← Eval.inUnit unit (runStmts host scope program.stmts .nil) with
  | .finished v => return v
  | .returned v => return v

/-- Evaluate a unit in a scope of its own, as a module with the given name. -/
def evalModule (host : Host) (name : String) (source : SourceUnit) : Eval Module := do
  match Program.parse source with
  | .error d => throw d
  | .ok program =>
    let scope ← Eval.withStore (·.newScope none Table.empty)
    let _ ← runProgram host program scope source.name
    let package := (program.package?.map Ident.name).getD name
    return ⟨name, source.name, package, ← Eval.readStore (·.bindings scope)⟩

/-- What the registry says when it is asked for the key of a module, carried out. A module that has to be evaluated
counts as being loaded while `evaluate` runs; if that fails, as not loaded. -/
def followStart (found : ResolvedModule) (evaluate : Eval Module) :
    Except Fault (LoadStart ModuleRef) → Eval ModuleRef
  | .error fault => do
    modify (·.record (.refused found.key))
    Eval.fail fault
  | .ok (.cached ref) => do
    modify (·.record (.reused found.key ref))
    return ref
  | .ok (.started registry) => do
    modify (·.beginLoad found registry)
    -- A module that fails can be loaded again later; one that loads itself finds its key taken.
    let module ← tryCatch evaluate fun d => do
      modify (·.abortLoad found.key)
      throw d
    let ref ← Eval.withStore (·.addModule module)
    modify (·.completeLoad found.key ref)
    return ref

/-- The module with a name, which `evaluate` makes unless it has been loaded before. -/
def loadModule (resolve : Resolver) (name : String) (evaluate : SourceUnit → Eval Module) :
    Eval ModuleRef := do
  let found ← MonadExcept.ofExcept (resolve name)
  followStart found (evaluate ⟨found.key, found.text⟩)
    ((← get).registry.start? found.key (bareName name))

/-- What does not change during a session. -/
structure Setting where
  /-- How many calls and loads can be in progress at once. -/
  maxFrames : Nat
  /-- Where modules are found. -/
  resolve : Resolver

mutual

/-- Call a value with a number of frames left. -/
def callWithin (setting : Setting) : Nat → Value → List Value → Span → Eval Value
  | 0, _, _, span => Eval.failAt (.tooManyFrames setting.maxFrames) span
  | frames + 1, callee, args, span =>
    Eval.inFrame <|
      applyValue ⟨callWithin setting frames, loadWithin setting frames⟩ callee args span

/-- Load a module with a number of frames left. -/
def loadWithin (setting : Setting) : Nat → String → Eval ModuleRef
  -- A module that is there already needs no frame, so the resolver and the registry are asked first.
  | 0, name =>
    loadModule setting.resolve name fun _ => Eval.fail (.tooManyFrames setting.maxFrames)
  | frames + 1, name =>
    loadModule setting.resolve name fun source =>
      Eval.inFrame <|
        evalModule ⟨callWithin setting frames, loadWithin setting frames⟩ (bareName name) source

end

/-- The host that has a number of frames left. -/
def Host.withFrames (setting : Setting) (frames : Nat) : Host :=
  ⟨callWithin setting frames, loadWithin setting frames⟩

end ScriptLang
