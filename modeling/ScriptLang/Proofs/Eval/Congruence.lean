import ScriptLang.Eval.Call

/-!
# Relations between runs of the same code

The evaluator asks its host for every call and every load and does all else itself, by a few
elementary steps. So a relation between computations that sequencing and the elementary steps
respect holds of two runs of the same code on two hosts as soon as it holds of what the hosts do.
With one host on both sides the relation is a property that every run has.

## Main definitions

* `Congruence`: a relation that sequencing and the elementary steps respect
* `Congruence.Hosts`: two hosts whose calls and loads are related

## Main results

* `Congruence.evalExpr`, `Congruence.runStmts`: evaluation and execution on related hosts are
  related
* `Congruence.applyValue`, `Congruence.evalModule`: so are calls and the evaluation of a unit
-/

namespace ScriptLang

/-- A relation between computations that sequencing and the elementary steps of the evaluator
respect. -/
structure Congruence (R : (α : Type) → Eval α → Eval α → Prop) : Prop where
  pure {α : Type} (a : α) : R α (pure a) (pure a)
  throw {α : Type} (d : Diagnostic) : R α (throw d) (throw d)
  bind {α β : Type} {e e' : Eval α} {k k' : α → Eval β} :
    R α e e' → (∀ a, R β (k a) (k' a)) → R β (e >>= k) (e' >>= k')
  withSpan {α : Type} {e e' : Eval α} (span : Span) :
    R α e e' →
      R α (Eval.mapDiagnostic (·.withSpan span) e) (Eval.mapDiagnostic (·.withSpan span) e')
  inUnit {α : Type} {e e' : Eval α} (unit : String) :
    R α e e' → R α (Eval.inUnit unit e) (Eval.inUnit unit e')
  readStore {α : Type} (f : Store → α) : R α (Eval.readStore f) (Eval.readStore f)
  unitName : R String Eval.unitName Eval.unitName
  define (id : ScopeId) (name : String) (v : Value) :
    R Unit (Eval.modifyStore (·.define id name v)) (Eval.modifyStore (·.define id name v))
  assign (id : ScopeId) (name : String) (v : Value) :
    R Unit (Eval.modifyStore (·.assign id name v)) (Eval.modifyStore (·.assign id name v))
  newScope (parent : Option ScopeId) (bindings : Table Value) :
    R ScopeId (Eval.withStore (·.newScope parent bindings))
      (Eval.withStore (·.newScope parent bindings))
  newObject : R ObjectId (Eval.withStore Store.newObject) (Eval.withStore Store.newObject)
  print (line : String) : R Unit (Eval.print line) (Eval.print line)

namespace Congruence

variable {R : (α : Type) → Eval α → Eval α → Prop}

/-- Two hosts that do related things when they are asked the same. -/
structure Hosts (R : (α : Type) → Eval α → Eval α → Prop) (h h' : Host) : Prop where
  call (callee : Value) (args : List Value) (span : Span) :
    R Value (h.call callee args span) (h'.call callee args span)
  load (name : String) : R ModuleRef (h.load name) (h'.load name)

/-! ### Elementary steps

What the evaluator does without its host. Both sides run the same code here, so every branch that is
taken on one side is taken on the other. -/

section Elementary

variable (c : Congruence R)
include c

theorem failAt {α : Type} (fault : Fault) (span : Span) :
    R α (Eval.failAt fault span) (Eval.failAt fault span) :=
  c.throw _

theorem ofExcept {α : Type} (result : Except Fault α) :
    R α (Eval.ofExcept result) (Eval.ofExcept result) := by
  cases result with
  | ok a => exact c.pure a
  | error fault => exact c.throw _

theorem ofExceptAt {α : Type} (span : Span) (result : Except Fault α) :
    R α (Eval.ofExceptAt span result) (Eval.ofExceptAt span result) := by
  cases result with
  | ok a => exact c.pure a
  | error fault => exact c.throw _

theorem readName (scope : ScopeId) (name : String) (span : Span) :
    R Value (readName scope name span) (readName scope name span) := by
  refine c.bind (c.readStore _) fun found => ?_
  cases found with
  | some v => exact c.pure v
  | none =>
    cases Builtin.ofName? name with
    | some b => exact c.pure _
    | none => exact c.failAt _ _

theorem readSelf (scope : ScopeId) (span : Span) :
    R Value (readSelf scope span) (readSelf scope span) := by
  refine c.bind (c.readStore _) fun found => ?_
  cases found with
  | some v => exact c.pure v
  | none => exact c.failAt _ _

theorem readField (i : Instance) (member : Ident) :
    R Value (readField i member) (readField i member) := by
  refine c.bind (c.readStore _) fun found => ?_
  cases found with
  | some v => exact c.pure v
  | none =>
    cases i.ofClass.methods.get? member.name with
    | some method => exact c.pure _
    | none => exact c.failAt _ _

theorem readExport (m : ModuleRef) (member : Ident) :
    R Value (readExport m member) (readExport m member) := by
  refine c.bind (c.readStore _) fun found => ?_
  cases found with
  | some module => exact c.ofExceptAt _ _
  | none => exact c.failAt _ _

theorem readMember (object : Value) (member : Ident) :
    R Value (readMember object member) (readMember object member) := by
  cases object with
  | object i => exact c.readField i member
  | ofClass cls =>
    rw [ScriptLang.readMember]
    cases cls.methods.get? member.name with
    | some method => exact c.pure _
    | none => exact c.failAt _ _
  | module m => exact c.readExport m member
  | _ => exact c.failAt _ _

theorem writeMember (object : Value) (member : Ident) (v : Value) :
    R Value (writeMember object member v) (writeMember object member v) := by
  cases object with
  | object i => exact c.bind (c.define _ _ _) fun _ => c.pure v
  | _ => exact c.failAt _ _

theorem applyUnary (op : UnaryOp) (v : Value) (span : Span) :
    R Value (applyUnary op v span) (applyUnary op v span) := by
  cases op with
  | not => exact c.pure _
  | negate => exact c.ofExceptAt _ _

theorem applyBinary (op : BinaryOp) (left right : Value) (span : Span) :
    R Value (applyBinary op left right span) (applyBinary op left right span) := by
  unfold ScriptLang.applyBinary
  split
  · exact c.pure right
  · exact c.pure right
  · exact c.ofExceptAt _ _

theorem newClosure (scope : ScopeId) (name? : Option String) (function : Lambda) :
    R Closure (newClosure scope name? function) (newClosure scope name? function) :=
  c.bind c.newObject fun _ => c.bind c.unitName fun _ => c.pure _

theorem newMethods (scope : ScopeId) (methods : List Definition) (table : Table Closure) :
    R (Table Closure) (newMethods scope methods table) (newMethods scope methods table) := by
  induction methods generalizing table with
  | nil => exact c.pure table
  | cons d ds ih => exact c.bind (c.newClosure _ _ _) fun _ => ih _

theorem declareClass (scope : ScopeId) (name : String) (methods : List Definition) :
    R Value (declareClass scope name methods) (declareClass scope name methods) :=
  c.bind (c.newMethods _ _ _) fun _ => c.bind c.newObject fun _ =>
    c.bind (c.define _ _ _) fun _ => c.pure _

theorem defineFunction (scope : ScopeId) (d : Definition) :
    R Value (defineFunction scope d) (defineFunction scope d) :=
  c.bind (c.newClosure _ _ _) fun _ => c.bind (c.define _ _ _) fun _ => c.pure _

theorem runBuiltin (b : Builtin) (args : List Value) : R Value (b.run args) (b.run args) := by
  refine c.bind (c.ofExcept _) fun outcome => ?_
  obtain ⟨v, line⟩ := outcome
  cases line with
  | some line => exact c.bind (c.print line) fun _ => c.pure v
  | none => exact c.bind (c.pure ()) fun _ => c.pure v

end Elementary

/-! ### Expressions and statements

The recursion is that of the evaluator, over the tree; only calls and loads leave it. -/

section Trees

variable {h h' : Host}

mutual

theorem evalExpr (c : Congruence R) (hosts : Hosts R h h') (scope : ScopeId) :
    ∀ e : Expr, R Value (evalExpr h scope e) (evalExpr h' scope e)
  | .int _ _ | .float _ _ | .string _ _ | .bool _ _ | .nil _ => c.pure _
  | .selfRef span => c.readSelf scope span
  | .name span name => c.readName scope name span
  | .unary span op operand =>
    c.bind (evalExpr c hosts scope operand) fun v => c.applyUnary op v span
  | .binary span left op right => by
    refine c.bind (evalExpr c hosts scope left) fun l => ?_
    -- Both sides have the same left value, so both leave out the right operand or neither does.
    by_cases decided : isDecided op l = true
    · simp only [if_pos decided]
      exact c.pure l
    · simp only [if_neg decided]
      exact c.bind (evalExpr c hosts scope right) fun r => c.applyBinary op l r span
  -- Here the evaluator asks its host.
  | .call span callee args =>
    c.bind (evalExpr c hosts scope callee) fun f =>
      c.bind (evalArgs c hosts scope args) fun vs => hosts.call f vs span
  | .member _ object member =>
    c.bind (evalExpr c hosts scope object) fun v => c.readMember v member
  | .assignName _ target value =>
    c.bind (evalExpr c hosts scope value) fun v =>
      c.bind (c.assign scope target.name v) fun _ => c.pure v
  | .assignMember _ object member value =>
    c.bind (evalExpr c hosts scope object) fun o =>
      c.bind (evalExpr c hosts scope value) fun v => c.writeMember o member v
  | .lambda _ function => c.bind (c.newClosure scope none function) fun _ => c.pure _

theorem evalArgs (c : Congruence R) (hosts : Hosts R h h') (scope : ScopeId) :
    ∀ es : List Expr, R (List Value) (evalArgs h scope es) (evalArgs h' scope es)
  | [] => c.pure _
  | e :: es =>
    c.bind (evalExpr c hosts scope e) fun _ =>
      c.bind (evalArgs c hosts scope es) fun _ => c.pure _

end

theorem loadModules (c : Congruence R) (hosts : Hosts R h h') (scope : ScopeId)
    (paths : List ModulePath) (last : Value) :
    R Value (loadModules h scope paths last) (loadModules h' scope paths last) := by
  induction paths generalizing last with
  | nil => exact c.pure last
  | cons p ps ih =>
    -- The other place where the host is asked.
    refine c.bind (c.withSpan p.span (hosts.load p.path)) fun m => ?_
    exact c.bind (c.define _ _ _) fun _ => ih _

mutual

theorem runStmt (c : Congruence R) (hosts : Hosts R h h') (scope : ScopeId) :
    ∀ s : Stmt, R Completion (runStmt h scope s) (runStmt h' scope s)
  | .define d => c.bind (c.defineFunction scope d) fun _ => c.pure _
  | .declareClass name methods _ =>
    c.bind (c.declareClass scope name.name methods) fun _ => c.pure _
  | .conditional cond => runConditional c hosts scope cond
  | .giveBack none _ => c.pure _
  | .giveBack (some e) _ => c.bind (c.evalExpr hosts scope e) fun _ => c.pure _
  | .load paths _ => c.bind (c.loadModules hosts scope paths .nil) fun _ => c.pure _
  | .package _ _ => c.pure _
  | .block body => runBlock c hosts scope body
  | .expr e => c.bind (c.evalExpr hosts scope e) fun _ => c.pure _

theorem runStmts (c : Congruence R) (hosts : Hosts R h h') (scope : ScopeId) :
    ∀ (stmts : List Stmt) (last : Value),
      R Completion (runStmts h scope stmts last) (runStmts h' scope stmts last)
  | [], _ => c.pure _
  | s :: rest, _ => by
    -- A `return` leaves out the statements after it, on both sides.
    refine c.bind (runStmt c hosts scope s) fun completion => ?_
    cases completion with
    | finished v => exact runStmts c hosts scope rest v
    | returned v => exact c.pure _

theorem runBlock (c : Congruence R) (hosts : Hosts R h h') (scope : ScopeId) :
    ∀ b : Block, R Completion (runBlock h scope b) (runBlock h' scope b)
  | .mk stmts _ => c.bind (c.newScope _ _) fun inner => runStmts c hosts inner stmts .nil

theorem runConditional (c : Congruence R) (hosts : Hosts R h h') (scope : ScopeId) :
    ∀ cond : Conditional, R Completion (runConditional h scope cond) (runConditional h' scope cond)
  | .mk condition thenBlock otherwise _ => by
    refine c.bind (c.evalExpr hosts scope condition) fun v => ?_
    by_cases truthy : v.isTruthy = true
    · simp only [if_pos truthy]
      exact runBlock c hosts scope thenBlock
    · simp only [if_neg truthy]
      exact runElse c hosts scope otherwise

theorem runElse (c : Congruence R) (hosts : Hosts R h h') (scope : ScopeId) :
    ∀ b : ElseBranch, R Completion (runElse h scope b) (runElse h' scope b)
  | .absent => c.pure _
  | .block body => runBlock c hosts scope body
  | .elseIf cond => runConditional c hosts scope cond

end

end Trees

/-! ### Calls and units -/

section Calls

variable {h h' : Host} (c : Congruence R) (hosts : Hosts R h h')
include c hosts

theorem invoke (f : Closure) (receiver : Option Value) (args : List Value) (span : Span) :
    R Value (invoke h f receiver args span) (invoke h' f receiver args span) := by
  rw [ScriptLang.invoke, ScriptLang.invoke]
  -- The body is only run if there is an argument for every parameter.
  by_cases mismatch : (receiver.toList ++ args).length ≠ f.arity
  · simp only [if_pos mismatch]
    exact c.failAt _ _
  · simp only [if_neg mismatch]
    refine c.bind (c.newScope _ _) fun scope => ?_
    refine c.bind (c.inUnit _ (c.runStmts hosts scope _ _)) fun completion => ?_
    cases completion with
    | finished v => exact c.pure _
    | returned v => exact c.pure _

theorem instantiate (cls : Class) (args : List Value) (span : Span) :
    R Value (instantiate h cls args span) (instantiate h' cls args span) := by
  refine c.bind (c.newScope _ _) fun fields => ?_
  cases cls.methods.get? initName with
  | some init => exact c.bind (c.invoke hosts _ _ _ _) fun _ => c.pure _
  | none =>
    cases args with
    | nil => exact c.pure _
    | cons _ _ => exact c.failAt _ _

theorem applyValue (callee : Value) (args : List Value) (span : Span) :
    R Value (applyValue h callee args span) (applyValue h' callee args span) := by
  cases callee with
  | function f => exact c.invoke hosts f none args span
  | method m => exact c.invoke hosts m.method _ args span
  | builtin b => exact c.withSpan span (c.runBuiltin b args)
  | ofClass cls => exact c.instantiate hosts cls args span
  | _ => exact c.failAt _ _

theorem runProgram (program : Program) (scope : ScopeId) (unit : String) :
    R Value (runProgram h program scope unit) (runProgram h' program scope unit) := by
  refine c.bind (c.inUnit unit (c.runStmts hosts scope _ _)) fun completion => ?_
  cases completion with
  | finished v => exact c.pure v
  | returned v => exact c.pure v

theorem evalModule (name : String) (source : SourceUnit) :
    R Module (evalModule h name source) (evalModule h' name source) := by
  rw [ScriptLang.evalModule, ScriptLang.evalModule]
  cases Program.parse source with
  | error d => exact c.throw d
  | ok program =>
    refine c.bind (c.newScope _ _) fun scope => ?_
    refine c.bind (c.runProgram hosts program scope source.name) fun _ => ?_
    exact c.bind (c.readStore _) fun _ => c.pure _

end Calls

end Congruence

end ScriptLang
