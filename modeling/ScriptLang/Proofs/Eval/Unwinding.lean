import ScriptLang.Proofs.Eval.Run

/-!
# Unwinding to a call or a unit

The evaluator can also be written so that a `return` ends a computation the way a fault does. Then
every step after it is skipped, whether it belongs to a statement, an expression, a call or a load, up
to the next place where a `return` is caught. Nothing in the types says where that is: any of these
computations could end with a `return` that came from further in.

Written this way, only the statements of a body or of a unit end with one. The two places that catch
it are the call of a function and the evaluation of a unit, and they are enough: expressions, calls and
loads are the ones of the evaluator without such ends, and the statements end with a `return` where
those of the evaluator are `Completion.returned`.

## Main definitions

* `Unwind`, `Unwinding`: the two reasons to stop early, and computations that stop for either
* `Unwinding.ofEval`: a computation that stops for a fault only
* `Unwinding.catchReturn`: where a `return` stops
* `Unwinding.evalExpr`, `Unwinding.runStmts`, `Unwinding.applyValue`, `Unwinding.Host.withFrames`: the
  evaluator on these computations

## Main results

* `Unwinding.evalExpr_eq`, `Unwinding.runStmts_eq`: expressions never end with a `return`, and
  statements do where they have returned
* `Unwinding.Host.withFrames_eq`: nor do calls and loads
-/

namespace ScriptLang

/-- Why running code stops early. -/
inductive Unwind where
  /-- A `return` was reached; it gives back the value. -/
  | returned (v : Value)
  /-- Something went wrong. -/
  | failed (d : Diagnostic)

/-- Change the diagnostic; a `return` has none. -/
def Unwind.mapDiagnostic (f : Diagnostic → Diagnostic) : Unwind → Unwind
  | .returned v => .returned v
  | .failed d => .failed (f d)

/-- A computation that stops early at a `return` as it does at a fault. -/
abbrev Unwinding (α : Type) := EStateM Unwind Machine α

namespace Unwinding

variable {α β : Type}

/-- A computation that stops early at faults only. -/
def ofEval (e : Eval α) : Unwinding α := fun m =>
  match e m with
  | .ok a m' => .ok a m'
  | .error d m' => .error (.failed d) m'

/-- A computation that never ends with a `return`. -/
def NeverReturns (u : Unwinding α) : Prop := ∀ m v m', u m ≠ .error (.returned v) m'

/-- Change the diagnostic that a computation ends with. -/
def mapDiagnostic (f : Diagnostic → Diagnostic) (body : Unwinding α) : Unwinding α := fun m =>
  match body m with
  | .ok a m' => .ok a m'
  | .error u m' => .error (u.mapDiagnostic f) m'

/-- Run a computation with one more call or load in progress. -/
def inFrame (body : Unwinding α) : Unwinding α := fun m =>
  match body { m with depth := m.depth + 1 } with
  | .ok a m' => .ok a { m' with depth := m.depth }
  | .error u m' => .error u { m' with depth := m.depth }

/-- Run a computation on behalf of a unit. -/
def inUnit (unit : String) (body : Unwinding α) : Unwinding α := fun m =>
  match body { m with unit := unit } with
  | .ok a m' => .ok a { m' with unit := m.unit }
  | .error u m' => .error (u.mapDiagnostic (·.withUnit unit)) { m' with unit := m.unit }

/-- Stop a `return`: what it gives back is the value, which otherwise is made of that of the last
statement. Faults pass. -/
def catchReturn (fallthrough : Value → Value) (body : Unwinding Value) : Unwinding Value := fun m =>
  match body m with
  | .ok v m' => .ok (fallthrough v) m'
  | .error (.returned v) m' => .ok v m'
  | .error (.failed d) m' => .error (.failed d) m'

/-! ### The evaluator -/

/-- What running code asks of its surroundings, where a `return` may come out of them. -/
structure Host where
  /-- Call a value with arguments; the span is that of the call. -/
  call : Value → List Value → Span → Unwinding Value
  /-- The module with a name, loaded if it is not there yet. -/
  load : String → Unwinding ModuleRef

mutual

/-- The value of an expression in a scope. -/
def evalExpr (host : Host) (scope : ScopeId) : Expr → Unwinding Value
  | .int _ n => return .int n
  | .float _ x => return .float x
  | .string _ s => return .string s
  | .bool _ b => return .bool b
  | .nil _ => return .nil
  | .selfRef span => ofEval (readSelf scope span)
  | .name span name => ofEval (readName scope name span)
  | .unary span op operand => do
    let v ← evalExpr host scope operand
    ofEval (applyUnary op v span)
  | .binary span left op right => do
    let l ← evalExpr host scope left
    if isDecided op l then
      return l
    else
      let r ← evalExpr host scope right
      ofEval (applyBinary op l r span)
  | .call span callee args => do
    let f ← evalExpr host scope callee
    let vs ← evalArgs host scope args
    host.call f vs span
  | .member _ object member => do
    let v ← evalExpr host scope object
    ofEval (readMember v member)
  | .assignName _ target value => do
    let v ← evalExpr host scope value
    ofEval (Eval.modifyStore (·.assign scope target.name v))
    return v
  | .assignMember _ object member value => do
    let o ← evalExpr host scope object
    let v ← evalExpr host scope value
    ofEval (writeMember o member v)
  | .lambda _ function => do
    return .function (← ofEval (newClosure scope none function))

/-- The values of expressions, from left to right. -/
def evalArgs (host : Host) (scope : ScopeId) : List Expr → Unwinding (List Value)
  | [] => return []
  | e :: es => do
    let v ← evalExpr host scope e
    let vs ← evalArgs host scope es
    return v :: vs

end

/-- Load modules one after the other and bind each to its bare name. -/
def loadModules (host : Host) (scope : ScopeId) : List ModulePath → Value → Unwinding Value
  | [], last => return last
  | p :: ps, _ => do
    let m ← mapDiagnostic (·.withSpan p.span) (host.load p.path)
    ofEval (Eval.modifyStore (·.define scope (bareName p.path) (.module m)))
    loadModules host scope ps (.module m)

mutual

/-- Run a statement in a scope. Here a `return` starts on its way. -/
def runStmt (host : Host) (scope : ScopeId) : Stmt → Unwinding Value
  | .define d => ofEval (defineFunction scope d)
  | .declareClass name methods _ => ofEval (declareClass scope name.name methods)
  | .conditional c => runConditional host scope c
  | .giveBack none _ => throw (.returned .nil)
  | .giveBack (some e) _ => do
    let v ← evalExpr host scope e
    throw (.returned v)
  | .load paths _ => loadModules host scope paths .nil
  | .package _ _ => return .nil
  | .block body => runBlock host scope body
  | .expr e => evalExpr host scope e

/-- Run statements in order, after one with the value `last`; the value is that of the last one. -/
def runStmts (host : Host) (scope : ScopeId) : List Stmt → Value → Unwinding Value
  | [], last => return last
  | s :: rest, _ => do
    let v ← runStmt host scope s
    runStmts host scope rest v

/-- Run the statements of a block in a scope of their own. -/
def runBlock (host : Host) (scope : ScopeId) : Block → Unwinding Value
  | .mk stmts _ => do
    let inner ← ofEval (innerScope scope)
    runStmts host inner stmts .nil

/-- Run the branch of a conditional that its condition selects. -/
def runConditional (host : Host) (scope : ScopeId) : Conditional → Unwinding Value
  | .mk condition thenBlock otherwise _ => do
    let v ← evalExpr host scope condition
    if v.isTruthy then
      runBlock host scope thenBlock
    else
      runElse host scope otherwise

/-- Run what a conditional does otherwise. -/
def runElse (host : Host) (scope : ScopeId) : ElseBranch → Unwinding Value
  | .absent => return .nil
  | .block body => runBlock host scope body
  | .elseIf c => runConditional host scope c

end

/-- Call a function. Here a `return` of its body stops. -/
def invoke (host : Host) (f : Closure) (receiver : Option Value) (args : List Value) (span : Span) :
    Unwinding Value := do
  let values := receiver.toList ++ args
  if values.length ≠ f.arity then
    ofEval (Eval.failAt (arityFault f receiver.toList.length args.length) span)
  else
    let scope ← ofEval
      (Eval.withStore (·.newScope (some f.scope) (bindParams f.function.params values)))
    catchReturn (fun _ => .nil) (inUnit f.origin (runStmts host scope f.function.body.stmts .nil))

/-- Make an object of a class and set it up. -/
def instantiate (host : Host) (c : Class) (args : List Value) (span : Span) : Unwinding Value := do
  let fields ← ofEval (Eval.withStore (·.newScope none Table.empty))
  let object := Value.object ⟨c, fields⟩
  match c.methods.get? initName with
  | some init =>
    let _ ← invoke host init (some object) args span
    return object
  | none =>
    if args.isEmpty then
      return object
    else
      ofEval (Eval.failAt (.arity c.name 0 args.length) span)

/-- Call a value. -/
def applyValue (host : Host) (callee : Value) (args : List Value) (span : Span) : Unwinding Value :=
  match callee with
  | .function f => invoke host f none args span
  | .method m => invoke host m.method (some (.object m.receiver)) args span
  | .builtin b => mapDiagnostic (·.withSpan span) (ofEval (b.run args))
  | .ofClass c => instantiate host c args span
  | other => ofEval (Eval.failAt (.notCallable other.typeName) span)

/-- Evaluate a program in a scope. Here a `return` outside of any function stops. -/
def runProgram (host : Host) (program : Program) (scope : ScopeId) (unit : String) :
    Unwinding Value :=
  catchReturn id (inUnit unit (runStmts host scope program.stmts .nil))

/-- Evaluate a unit in a scope of its own, as a module with the given name. -/
def evalModule (host : Host) (name : String) (source : SourceUnit) : Unwinding Module := do
  match Program.parse source with
  | .error d => throw (.failed d)
  | .ok program =>
    let scope ← ofEval (Eval.withStore (·.newScope none Table.empty))
    let _ ← runProgram host program scope source.name
    let package := (program.package?.map Ident.name).getD name
    return ⟨name, source.name, package, ← ofEval (Eval.readStore (·.bindings scope))⟩

/-- What the registry says when it is asked for the key of a module, carried out. -/
def followStart (found : ResolvedModule) (evaluate : Unwinding Module) :
    Except Fault (LoadStart ModuleRef) → Unwinding ModuleRef
  | .error fault => do
    modify (·.record (.refused found.key))
    throw (.failed fault.report)
  | .ok (.cached ref) => do
    modify (·.record (.reused found.key ref))
    return ref
  | .ok (.started registry) => do
    modify (·.beginLoad found registry)
    -- Whatever the evaluation ends with, if not with a module, goes on outwards from here.
    let module ← tryCatch evaluate fun u => do
      modify (·.abortLoad found.key)
      throw u
    let ref ← ofEval (Eval.withStore (·.addModule module))
    modify (·.completeLoad found.key ref)
    return ref

/-- The module with a name, which `evaluate` makes unless it has been loaded before. -/
def loadModule (resolve : Resolver) (name : String) (evaluate : SourceUnit → Unwinding Module) :
    Unwinding ModuleRef := do
  let found ← ofEval (MonadExcept.ofExcept (resolve name))
  followStart found (evaluate ⟨found.key, found.text⟩)
    ((← get).registry.start? found.key (bareName name))

mutual

/-- Call a value with a number of frames left. -/
def callWithin (setting : Setting) : Nat → Value → List Value → Span → Unwinding Value
  | 0, _, _, span => ofEval (Eval.failAt (.tooManyFrames setting.maxFrames) span)
  | frames + 1, callee, args, span =>
    inFrame <| applyValue ⟨callWithin setting frames, loadWithin setting frames⟩ callee args span

/-- Load a module with a number of frames left. -/
def loadWithin (setting : Setting) : Nat → String → Unwinding ModuleRef
  | 0, name =>
    loadModule setting.resolve name fun _ => ofEval (Eval.fail (.tooManyFrames setting.maxFrames))
  | frames + 1, name =>
    loadModule setting.resolve name fun source =>
      inFrame <|
        evalModule ⟨callWithin setting frames, loadWithin setting frames⟩ (bareName name) source

end

/-- The host that has a number of frames left. -/
def Host.withFrames (setting : Setting) (frames : Nat) : Host :=
  ⟨callWithin setting frames, loadWithin setting frames⟩

/-! ### Computations without a `return` -/

theorem neverReturns_ofEval (e : Eval α) : (ofEval e).NeverReturns := by
  intro m v m' h
  rw [ofEval] at h
  cases hrun : e m with
  | ok a m₁ => simp [hrun] at h
  | error d m₁ => simp [hrun] at h

@[simp]
theorem ofEval_pure (a : α) : ofEval (pure a) = pure a := rfl

@[simp]
theorem ofEval_throw (d : Diagnostic) : ofEval (throw d : Eval α) = throw (.failed d) := rfl

@[simp]
theorem ofEval_modify (f : Machine → Machine) : ofEval (modify f) = modify f := rfl

theorem bind_eq (u : Unwinding α) (k : α → Unwinding β) (m : Machine) :
    (u >>= k) m =
      match u m with
      | .ok a m' => k a m'
      | .error w m' => .error w m' := by
  change EStateM.bind u k m = _
  rw [EStateM.bind]
  cases u m with
  | ok a m' => rfl
  | error w m' => rfl

@[simp]
theorem ofEval_bind (e : Eval α) (k : α → Eval β) :
    ofEval (e >>= k) = ofEval e >>= fun a => ofEval (k a) := by
  funext m
  rw [bind_eq, ofEval, ofEval, Eval.bind_eq]
  cases e m with
  | ok a m' => rfl
  | error d m' => rfl

theorem ofEval_tryCatch (e : Eval α) (handle : Diagnostic → Eval α) (after : Unwind → Unwinding α)
    (h : ∀ d, after (.failed d) = ofEval (handle d)) :
    ofEval (tryCatch e handle) = tryCatch (ofEval e) after := by
  funext m
  change _ = EStateM.tryCatch (ofEval e) after m
  rw [ofEval, Eval.tryCatch_eq]
  delta EStateM.tryCatch
  simp only [ofEval]
  cases e m with
  | ok a m' => rfl
  | error d m' => exact (congrFun (h d) m').symm

@[simp]
theorem ofEval_mapDiagnostic (f : Diagnostic → Diagnostic) (e : Eval α) :
    ofEval (Eval.mapDiagnostic f e) = mapDiagnostic f (ofEval e) := by
  funext m
  rw [ofEval, Eval.mapDiagnostic, mapDiagnostic, ofEval]
  cases e m with
  | ok a m' => rfl
  | error d m' => rfl

@[simp]
theorem ofEval_inFrame (e : Eval α) : ofEval (Eval.inFrame e) = inFrame (ofEval e) := by
  funext m
  rw [ofEval, Eval.inFrame, inFrame, ofEval]
  cases e { m with depth := m.depth + 1 } with
  | ok a m' => rfl
  | error d m' => rfl

/-- A host out of which no `return` comes. -/
def Host.ofHost (host : ScriptLang.Host) : Host :=
  ⟨fun callee args span => ofEval (host.call callee args span), fun name => ofEval (host.load name)⟩

@[simp]
theorem Host.ofHost_call (host : ScriptLang.Host) (callee : Value) (args : List Value)
    (span : Span) : (Host.ofHost host).call callee args span = ofEval (host.call callee args span) :=
  rfl

@[simp]
theorem Host.ofHost_load (host : ScriptLang.Host) (name : String) :
    (Host.ofHost host).load name = ofEval (host.load name) := rfl

/-! ### Expressions -/

mutual

theorem evalExpr_eq (host : ScriptLang.Host) (scope : ScopeId) :
    ∀ e : Expr, evalExpr (.ofHost host) scope e = ofEval (ScriptLang.evalExpr host scope e)
  | .int _ _ | .float _ _ | .string _ _ | .bool _ _ | .nil _ => rfl
  | .selfRef _ | .name _ _ => rfl
  | .unary span op operand => by
    rw [evalExpr, ScriptLang.evalExpr, ofEval_bind, evalExpr_eq host scope operand]
  | .binary span left op right => by
    rw [evalExpr, ScriptLang.evalExpr, ofEval_bind, evalExpr_eq host scope left]
    refine bind_congr fun l => ?_
    split
    · rfl
    · rw [ofEval_bind, evalExpr_eq host scope right]
  | .call span callee args => by
    simp only [evalExpr, ScriptLang.evalExpr, ofEval_bind, evalExpr_eq host scope callee,
      evalArgs_eq host scope args, Host.ofHost_call]
  | .member _ object member => by
    rw [evalExpr, ScriptLang.evalExpr, ofEval_bind, evalExpr_eq host scope object]
  | .assignName _ target value => by
    simp only [evalExpr, ScriptLang.evalExpr, ofEval_bind, evalExpr_eq host scope value, ofEval_pure]
  | .assignMember _ object member value => by
    simp only [evalExpr, ScriptLang.evalExpr, ofEval_bind, evalExpr_eq host scope object,
      evalExpr_eq host scope value]
  | .lambda _ function => by
    rw [evalExpr, ScriptLang.evalExpr, ofEval_bind]
    rfl

theorem evalArgs_eq (host : ScriptLang.Host) (scope : ScopeId) :
    ∀ es : List Expr, evalArgs (.ofHost host) scope es = ofEval (ScriptLang.evalArgs host scope es)
  | [] => rfl
  | e :: es => by
    simp only [evalArgs, ScriptLang.evalArgs, ofEval_bind, evalExpr_eq host scope e,
      evalArgs_eq host scope es, ofEval_pure]

end

/-! ### Statements -/

/-- Statements that end in one of the two ways, where a `return` is a reason to stop. -/
def ofCompletion (e : Eval Completion) : Unwinding Value := do
  match ← ofEval e with
  | .finished v => return v
  | .returned v => throw (.returned v)

theorem ofCompletion_eq (e : Eval Completion) (m : Machine) :
    ofCompletion e m =
      match e m with
      | .ok (.finished v) m' => .ok v m'
      | .ok (.returned v) m' => .error (.returned v) m'
      | .error d m' => .error (.failed d) m' := by
  rw [ofCompletion, bind_eq, ofEval]
  cases e m with
  | ok completion m' => cases completion <;> rfl
  | error d m' => rfl

theorem ofCompletion_eq_returned {e : Eval Completion} {m m' : Machine} {v : Value} :
    ofCompletion e m = .error (.returned v) m' ↔ e m = .ok (.returned v) m' := by
  rw [ofCompletion_eq]
  cases e m with
  | ok completion m₁ => cases completion <;> simp
  | error d m₁ => simp

theorem ofCompletion_bind (e : Eval α) (k : α → Eval Completion) :
    ofCompletion (e >>= k) = ofEval e >>= fun a => ofCompletion (k a) := by
  rw [ofCompletion, ofEval_bind, bind_assoc]
  rfl

/-- Statements that do not return have the value of the computation that they end with. -/
theorem ofCompletion_finished (e : Eval Value) :
    ofCompletion (do return .finished (← e)) = ofEval e := by
  rw [ofCompletion_bind]
  exact bind_pure _

theorem loadModules_eq (host : ScriptLang.Host) (scope : ScopeId) (paths : List ModulePath)
    (last : Value) :
    loadModules (.ofHost host) scope paths last =
      ofEval (ScriptLang.loadModules host scope paths last) := by
  induction paths generalizing last with
  | nil => rfl
  | cons p ps ih =>
    simp only [loadModules, ScriptLang.loadModules, ofEval_bind, ofEval_mapDiagnostic, ih,
      Host.ofHost_load]

mutual

theorem runStmt_eq (host : ScriptLang.Host) (scope : ScopeId) :
    ∀ s : Stmt, runStmt (.ofHost host) scope s = ofCompletion (ScriptLang.runStmt host scope s)
  | .define d => by
    rw [runStmt, ScriptLang.runStmt, ofCompletion_finished]
  | .declareClass name methods _ => by
    rw [runStmt, ScriptLang.runStmt, ofCompletion_finished]
  | .conditional c => runConditional_eq host scope c
  | .giveBack none _ => rfl
  | .giveBack (some e) _ => by
    rw [runStmt, ScriptLang.runStmt, ofCompletion_bind, evalExpr_eq]
    rfl
  | .load paths _ => by
    rw [runStmt, ScriptLang.runStmt, ofCompletion_finished, loadModules_eq]
  | .package _ _ => rfl
  | .block body => runBlock_eq host scope body
  | .expr e => by
    rw [runStmt, ScriptLang.runStmt, ofCompletion_finished, evalExpr_eq]

/-- A `return` skips the statements after it, by being a reason to stop. -/
theorem runStmts_eq (host : ScriptLang.Host) (scope : ScopeId) :
    ∀ (stmts : List Stmt) (last : Value), runStmts (.ofHost host) scope stmts last =
      ofCompletion (ScriptLang.runStmts host scope stmts last)
  | [], _ => rfl
  | s :: rest, last => by
    rw [runStmts, ScriptLang.runStmts, ofCompletion_bind, runStmt_eq host scope s, ofCompletion,
      bind_assoc]
    refine bind_congr fun completion => ?_
    cases completion with
    | finished v => exact runStmts_eq host scope rest v
    | returned v => rfl

theorem runBlock_eq (host : ScriptLang.Host) (scope : ScopeId) :
    ∀ b : Block, runBlock (.ofHost host) scope b = ofCompletion (ScriptLang.runBlock host scope b)
  | .mk stmts _ => by
    rw [runBlock, ScriptLang.runBlock, ofCompletion_bind]
    exact bind_congr fun inner => runStmts_eq host inner stmts .nil

theorem runConditional_eq (host : ScriptLang.Host) (scope : ScopeId) :
    ∀ c : Conditional, runConditional (.ofHost host) scope c =
      ofCompletion (ScriptLang.runConditional host scope c)
  | .mk condition thenBlock otherwise _ => by
    rw [runConditional, ScriptLang.runConditional, ofCompletion_bind, evalExpr_eq]
    refine bind_congr fun v => ?_
    split
    · exact runBlock_eq host scope thenBlock
    · exact runElse_eq host scope otherwise

theorem runElse_eq (host : ScriptLang.Host) (scope : ScopeId) :
    ∀ b : ElseBranch, runElse (.ofHost host) scope b =
      ofCompletion (ScriptLang.runElse host scope b)
  | .absent => rfl
  | .block body => runBlock_eq host scope body
  | .elseIf c => runConditional_eq host scope c

end

/-! ### Calls and loads -/

/-- A `return` that gets out of statements stops where it is caught, and nothing else is lost. -/
theorem catchReturn_inUnit (fallthrough : Value → Value) (unit : String) (e : Eval Completion) :
    catchReturn fallthrough (inUnit unit (ofCompletion e)) =
      ofEval (do
        match ← Eval.inUnit unit e with
        | .finished v => return fallthrough v
        | .returned v => return v) := by
  funext m
  rw [catchReturn, inUnit, ofCompletion_eq, ofEval_bind, bind_eq, ofEval, Eval.inUnit]
  cases e { m with unit := unit } with
  | ok completion m' => cases completion <;> rfl
  | error d m' => rfl

section Calls

variable (host : ScriptLang.Host)

theorem invoke_eq (f : Closure) (receiver : Option Value) (args : List Value) (span : Span) :
    invoke (.ofHost host) f receiver args span =
      ofEval (ScriptLang.invoke host f receiver args span) := by
  rw [invoke, ScriptLang.invoke]
  by_cases mismatch : (receiver.toList ++ args).length ≠ f.arity
  · simp only [if_pos mismatch]
  · simp only [if_neg mismatch, ofEval_bind]
    refine bind_congr fun scope => ?_
    rw [runStmts_eq, catchReturn_inUnit, ofEval_bind]
    refine bind_congr fun completion => ?_
    cases completion with
    | finished v => rfl
    | returned v => rfl

theorem instantiate_eq (c : Class) (args : List Value) (span : Span) :
    instantiate (.ofHost host) c args span = ofEval (ScriptLang.instantiate host c args span) := by
  rw [instantiate, ScriptLang.instantiate, ofEval_bind]
  refine bind_congr fun fields => ?_
  cases c.methods.get? initName with
  | some init =>
    simp only [invoke_eq, ofEval_bind, ofEval_pure]
  | none =>
    cases args with
    | nil => rfl
    | cons _ _ => rfl

theorem applyValue_eq (callee : Value) (args : List Value) (span : Span) :
    applyValue (.ofHost host) callee args span =
      ofEval (ScriptLang.applyValue host callee args span) := by
  cases callee with
  | function f => exact invoke_eq host f none args span
  | method m => exact invoke_eq host m.method _ args span
  | builtin b => exact (ofEval_mapDiagnostic _ _).symm
  | ofClass c => exact instantiate_eq host c args span
  | _ => rfl

theorem runProgram_eq (program : Program) (scope : ScopeId) (unit : String) :
    runProgram (.ofHost host) program scope unit =
      ofEval (ScriptLang.runProgram host program scope unit) := by
  rw [runProgram, runStmts_eq, catchReturn_inUnit]
  rfl

theorem evalModule_eq (name : String) (source : SourceUnit) :
    evalModule (.ofHost host) name source = ofEval (ScriptLang.evalModule host name source) := by
  rw [evalModule, ScriptLang.evalModule]
  cases Program.parse source with
  | error d => rfl
  | ok program => simp only [ofEval_bind, runProgram_eq, ofEval_pure]

end Calls

theorem followStart_eq (found : ResolvedModule) (evaluate : Eval Module)
    (start : Except Fault (LoadStart ModuleRef)) :
    followStart found (ofEval evaluate) start = ofEval (ScriptLang.followStart found evaluate start) := by
  match start with
  | .error fault => rfl
  | .ok (.cached ref) => rfl
  | .ok (.started registry) =>
    rw [followStart, ScriptLang.followStart]
    simp only [ofEval_bind, ofEval_modify, ofEval_pure]
    rw [ofEval_tryCatch]
    intro d
    simp only [ofEval_bind, ofEval_modify, ofEval_throw]

theorem loadModule_eq (resolve : Resolver) (name : String) (evaluate : SourceUnit → Eval Module) :
    loadModule resolve name (fun source => ofEval (evaluate source)) =
      ofEval (ScriptLang.loadModule resolve name evaluate) := by
  rw [loadModule, ScriptLang.loadModule, ofEval_bind]
  refine bind_congr fun found => ?_
  rw [ofEval_bind]
  exact bind_congr fun m => followStart_eq _ _ _

/-- **No `return` gets out of a call or a load.** The induction is on the frames left: a frame runs
code on the host with one frame less, out of which no `return` comes, and catches what its own
statements end with. -/
theorem Host.withFrames_eq (setting : Setting) (frames : Nat) :
    Host.withFrames setting frames = .ofHost (.withFrames setting frames) := by
  induction frames with
  | zero =>
    have hload (name : String) :
        loadWithin setting 0 name = ofEval (ScriptLang.loadWithin setting 0 name) :=
      loadModule_eq _ _ _
    exact congrArg (Host.mk _) (funext hload)
  | succ frames ih =>
    have hcall (callee : Value) (args : List Value) (span : Span) :
        callWithin setting (frames + 1) callee args span =
          ofEval (ScriptLang.callWithin setting (frames + 1) callee args span) := by
      change inFrame (applyValue (.withFrames setting frames) callee args span) = _
      rw [ih, applyValue_eq, ← ofEval_inFrame]
      rfl
    have hload (name : String) :
        loadWithin setting (frames + 1) name =
          ofEval (ScriptLang.loadWithin setting (frames + 1) name) := by
      change loadModule setting.resolve name
        (fun source => inFrame (evalModule (.withFrames setting frames) (bareName name) source)) = _
      simp only [ih, evalModule_eq, ← ofEval_inFrame]
      exact loadModule_eq _ _ _
    exact congr (congrArg Host.mk (funext fun _ => funext fun _ => funext fun _ => hcall _ _ _))
      (funext hload)

end Unwinding

end ScriptLang
