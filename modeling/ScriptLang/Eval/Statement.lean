import ScriptLang.Eval.Expression

/-!
# Running statements

Statements run in order. A list of them either runs to its end, with the value of the last one, or
stops at a `return`, with the value given back.

## Main definitions

* `Completion`: the two ways in which statements end
* `runStmts`, `runBlock`: run statements in a scope, and in a scope of their own
-/

namespace ScriptLang

/-- How statements end. -/
inductive Completion where
  /-- All of them ran; the last one had the value. -/
  | finished (v : Value)
  /-- A `return` was reached; it gives back the value. -/
  | returned (v : Value)

/-- A new class; its methods see the scope it is declared in. -/
def newMethods (scope : ScopeId) : List Definition → Table Closure → Eval (Table Closure)
  | [], methods => return methods
  | d :: ds, methods => do
    let method ← newClosure scope (some d.name.name) d.function
    newMethods scope ds (methods.insert d.name.name method)

/-- Declare a class in a scope. -/
def declareClass (scope : ScopeId) (name : String) (methods : List Definition) : Eval Value := do
  let table ← newMethods scope methods Table.empty
  let id ← Eval.withStore Store.newObject
  let c := Value.ofClass ⟨id, name, table⟩
  Eval.modifyStore (·.define scope name c)
  return c

/-- Define a function in a scope. -/
def defineFunction (scope : ScopeId) (d : Definition) : Eval Value := do
  let f := Value.function (← newClosure scope (some d.name.name) d.function)
  Eval.modifyStore (·.define scope d.name.name f)
  return f

/-- Load modules one after the other and bind each to its bare name; the value is the last one. -/
def loadModules (host : Host) (scope : ScopeId) : List ModulePath → Value → Eval Value
  | [], last => return last
  | p :: ps, _ => do
    let m ← Eval.mapDiagnostic (·.withSpan p.span) (host.load p.path)
    Eval.modifyStore (·.define scope (bareName p.path) (.module m))
    loadModules host scope ps (.module m)

/-- A new scope inside another, without bindings. -/
def innerScope (scope : ScopeId) : Eval ScopeId :=
  Eval.withStore (·.newScope (some scope) Table.empty)

mutual

/-- Run a statement in a scope. -/
def runStmt (host : Host) (scope : ScopeId) : Stmt → Eval Completion
  | .define d => return .finished (← defineFunction scope d)
  | .declareClass name methods _ => return .finished (← declareClass scope name.name methods)
  | .conditional c => runConditional host scope c
  | .giveBack none _ => return .returned .nil
  | .giveBack (some e) _ => return .returned (← evalExpr host scope e)
  | .load paths _ => return .finished (← loadModules host scope paths .nil)
  | .package _ _ => return .finished .nil
  | .block body => runBlock host scope body
  | .expr e => return .finished (← evalExpr host scope e)

/-- Run statements in order, after one with the value `last`. -/
def runStmts (host : Host) (scope : ScopeId) : List Stmt → Value → Eval Completion
  | [], last => return .finished last
  | s :: rest, _ => do
    match ← runStmt host scope s with
    | .finished v => runStmts host scope rest v
    | .returned v => return .returned v

/-- Run the statements of a block in a scope of their own. -/
def runBlock (host : Host) (scope : ScopeId) : Block → Eval Completion
  | .mk stmts _ => do
    let inner ← innerScope scope
    runStmts host inner stmts .nil

/-- Run the branch of a conditional that its condition selects. -/
def runConditional (host : Host) (scope : ScopeId) : Conditional → Eval Completion
  | .mk condition thenBlock otherwise _ => do
    let v ← evalExpr host scope condition
    if v.isTruthy then
      runBlock host scope thenBlock
    else
      runElse host scope otherwise

/-- Run what a conditional does otherwise. -/
def runElse (host : Host) (scope : ScopeId) : ElseBranch → Eval Completion
  | .absent => return .finished .nil
  | .block body => runBlock host scope body
  | .elseIf c => runConditional host scope c

end

end ScriptLang
