import ScriptLang.Proofs.Eval.Unwinding

/-!
# Where a `return` stops

A `return` is looked for where it stands: among the statements of a list, in the blocks that these
run, and in the branches that the conditions select. Functions, classes and modules are not looked
into, as their code is no part of the list that declares or loads them.

A run of the list stops with a `return` if and only if it comes to one that stands in the list and
what that one gives back can be evaluated. Nothing is run after this. The value is that of the call
or of the unit whose statements these are, and no `return` is seen from outside of it.

## Main definitions

* `ReturnPoint`: a `return` that a run has come to
* `Selects`, `Enters`: the block that a conditional or a statement runs
* `ComesTo`: a run of statements comes to a `return` that stands among them

## Main results

* `ComesTo.run_eq`: a run that comes to a `return` does nothing but evaluate what it gives back
* `exists_comesTo`: a run that returns has come to a `return`
* `return_stops_nearest`: a `return` stops the nearest call or unit, and nothing else sees it
-/

namespace ScriptLang

/-- A `return` that a run has come to, in the state in which it is found. -/
structure ReturnPoint where
  /-- What it gives back, if it has anything to give back. -/
  value? : Option Expr
  /-- The scope it stands in. -/
  scope : ScopeId
  machine : Machine

/-- The value that a `return` gives back, and the machine right after evaluating it. -/
def ReturnPoint.value (host : Host) (p : ReturnPoint) : EStateM.Result Diagnostic Machine Value :=
  match p.value? with
  | none => .ok .nil p.machine
  | some e => evalExpr host p.scope e p.machine

/-- The conditions of a conditional select one of its blocks; `m'` is the machine after those that
were evaluated for this. -/
inductive Selects (host : Host) (scope : ScopeId) : Machine → Conditional → Block → Machine → Prop
  | thenBlock {m m' : Machine} {v : Value} {condition : Expr} {body : Block}
    {otherwise : ElseBranch} {span : Span} :
    evalExpr host scope condition m = .ok v m' → v.isTruthy = true →
      Selects host scope m (.mk condition body otherwise span) body m'
  | elseBlock {m m' : Machine} {v : Value} {condition : Expr} {thenBlock body : Block}
    {span : Span} :
    evalExpr host scope condition m = .ok v m' → v.isTruthy = false →
      Selects host scope m (.mk condition thenBlock (.block body) span) body m'
  | elseIf {m m₁ m' : Machine} {v : Value} {condition : Expr} {thenBlock body : Block}
    {next : Conditional} {span : Span} :
    evalExpr host scope condition m = .ok v m₁ → v.isTruthy = false →
      Selects host scope m₁ next body m' →
      Selects host scope m (.mk condition thenBlock (.elseIf next) span) body m'

/-- A statement runs a block that stands in it, from the machine `m'` on. -/
inductive Enters (host : Host) (scope : ScopeId) (m : Machine) : Stmt → Block → Machine → Prop
  | block {body : Block} : Enters host scope m (.block body) body m
  | conditional {c : Conditional} {body : Block} {m' : Machine} :
    Selects host scope m c body m' → Enters host scope m (.conditional c) body m'

/-- A run of statements comes to a `return` that stands among them. -/
inductive ComesTo (host : Host) : ScopeId → Machine → List Stmt → ReturnPoint → Prop
  /-- It is the first statement. -/
  | here {scope : ScopeId} {m : Machine} {value? : Option Expr} {span : Span} {after : List Stmt} :
    ComesTo host scope m (.giveBack value? span :: after) ⟨value?, scope, m⟩
  /-- The first statement is run to its end, and it is among the others. -/
  | later {scope : ScopeId} {m m' : Machine} {s : Stmt} {v : Value} {rest : List Stmt}
    {p : ReturnPoint} :
    runStmt host scope s m = .ok (.finished v) m' → ComesTo host scope m' rest p →
      ComesTo host scope m (s :: rest) p
  /-- It is in the block that the first statement runs. -/
  | inside {scope inner : ScopeId} {m m₁ m₂ : Machine} {s : Stmt} {body : Block}
    {after : List Stmt} {p : ReturnPoint} :
    Enters host scope m s body m₁ → innerScope scope m₁ = .ok inner m₂ →
      ComesTo host inner m₂ body.stmts p → ComesTo host scope m (s :: after) p

section Runs

variable {host : Host} {scope inner : ScopeId} {m m' m₁ m₂ : Machine} {s : Stmt} {body : Block}
  {stmts rest : List Stmt} {last v : Value} {p : ReturnPoint}

/-! ### What a run does that comes to a `return` -/

theorem runStmts_cons_eq (host : Host) (scope : ScopeId) (s : Stmt) (rest : List Stmt)
    (last : Value) (m : Machine) :
    runStmts host scope (s :: rest) last m =
      match runStmt host scope s m with
      | .ok (.finished v) m' => runStmts host scope rest v m'
      | .ok (.returned v) m' => .ok (.returned v) m'
      | .error d m' => .error d m' := by
  rw [runStmts, Eval.bind_eq]
  cases runStmt host scope s m with
  | ok completion m' => cases completion <;> rfl
  | error d m' => rfl

theorem runBlock_eq_of_innerScope (h : innerScope scope m = .ok inner m') :
    runBlock host scope body m = runStmts host inner body.stmts .nil m' := by
  cases body with
  | mk stmts span => rw [runBlock, Eval.bind_eq, h, Block.stmts]

theorem runConditional_mk_eq {condition : Expr} {thenBlock : Block} {otherwise : ElseBranch}
    {span : Span} (h : evalExpr host scope condition m = .ok v m') :
    runConditional host scope (.mk condition thenBlock otherwise span) m =
      if v.isTruthy then runBlock host scope thenBlock m' else runElse host scope otherwise m' := by
  rw [runConditional, Eval.bind_eq, h]
  dsimp only
  split <;> rfl

theorem Selects.run_eq {c : Conditional} (h : Selects host scope m c body m') :
    runConditional host scope c m = runBlock host scope body m' := by
  induction h with
  | thenBlock hcondition htruthy => rw [runConditional_mk_eq hcondition, if_pos htruthy]
  | elseBlock hcondition hfalsy =>
    rw [runConditional_mk_eq hcondition, if_neg (by simp [hfalsy]), runElse]
  | elseIf hcondition hfalsy _ ih =>
    rw [runConditional_mk_eq hcondition, if_neg (by simp [hfalsy]), runElse, ih]

theorem Enters.run_eq (h : Enters host scope m s body m') :
    runStmt host scope s m = runBlock host scope body m' := by
  cases h with
  | block => rw [runStmt]
  | conditional hselects => rw [runStmt, hselects.run_eq]

/-- A run that comes to a `return` evaluates what it gives back, and does nothing after this. -/
theorem ComesTo.run_eq (h : ComesTo host scope m stmts p) (last : Value) :
    runStmts host scope stmts last m =
      match p.value host with
      | .ok v m' => .ok (.returned v) m'
      | .error d m' => .error d m' := by
  induction h generalizing last with
  | @here scope m value? span after =>
    rw [runStmts_cons_eq, ReturnPoint.value]
    cases value? with
    | none => rw [runStmt]; rfl
    | some e =>
      rw [runStmt, Eval.bind_eq]
      dsimp only
      cases evalExpr host scope e m with
      | ok v m' => rfl
      | error d m' => rfl
  | later hfirst _ ih =>
    rw [runStmts_cons_eq, hfirst]
    exact ih _
  | @inside scope inner m m₁ m₂ s body after p henters hinner _ ih =>
    rw [runStmts_cons_eq, henters.run_eq, runBlock_eq_of_innerScope hinner, ih]
    cases p.value host with
    | ok v m' => rfl
    | error d m' => rfl

/-! ### A run that returns comes to a `return` -/

mutual

/-- A statement that returns comes to a `return`, whatever the statements after it. -/
theorem exists_comesTo_cons (host : Host) (scope : ScopeId) (v : Value) (m' : Machine) :
    ∀ (s : Stmt) (m : Machine), runStmt host scope s m = .ok (.returned v) m' →
      ∀ rest, ∃ p, ComesTo host scope m (s :: rest) p ∧ p.value host = .ok v m'
  | .giveBack none _, m, h, _ => by
    rw [runStmt] at h
    cases h
    exact ⟨_, .here, rfl⟩
  | .giveBack (some e) _, m, h, _ => by
    refine ⟨_, .here, ?_⟩
    rw [runStmt] at h
    obtain ⟨w, m₁, hvalue, hlast⟩ := Eval.exists_of_bind_ok h
    cases hlast
    exact hvalue
  | .block body, m, h, _ => by
    rw [runStmt] at h
    obtain ⟨inner, m₂, p, hinner, hcomes, hvalue⟩ := exists_comesTo_block host scope v m' body m h
    exact ⟨p, .inside .block hinner hcomes, hvalue⟩
  | .conditional c, m, h, _ => by
    rw [runStmt] at h
    obtain ⟨body, m₁, inner, m₂, p, hselects, hinner, hcomes, hvalue⟩ :=
      exists_selects host scope v m' c m h
    exact ⟨p, .inside (.conditional hselects) hinner hcomes, hvalue⟩
  -- No other statement returns.
  | .define _, m, h, _ | .declareClass _ _ _, m, h, _ | .load _ _, m, h, _ | .expr _, m, h, _ => by
    rw [runStmt] at h
    obtain ⟨w, m₁, -, hlast⟩ := Eval.exists_of_bind_ok h
    cases hlast
  | .package _ _, m, h, _ => by
    rw [runStmt] at h
    cases h

/-- Statements that return come to a `return`. -/
theorem exists_comesTo (host : Host) (scope : ScopeId) (v : Value) (m' : Machine) :
    ∀ (stmts : List Stmt) (last : Value) (m : Machine),
      runStmts host scope stmts last m = .ok (.returned v) m' →
        ∃ p, ComesTo host scope m stmts p ∧ p.value host = .ok v m'
  | [], last, m, h => by
    rw [runStmts] at h
    cases h
  | s :: rest, last, m, h => by
    rw [runStmts] at h
    obtain ⟨completion, m₁, hfirst, hrest⟩ := Eval.exists_of_bind_ok h
    cases completion with
    | finished w =>
      obtain ⟨p, hcomes, hvalue⟩ := exists_comesTo host scope v m' rest w m₁ hrest
      exact ⟨p, .later hfirst hcomes, hvalue⟩
    | returned w =>
      cases hrest
      exact exists_comesTo_cons host scope v m' s m hfirst rest

/-- A block that returns comes to a `return`, in a scope of its own. -/
theorem exists_comesTo_block (host : Host) (scope : ScopeId) (v : Value) (m' : Machine) :
    ∀ (body : Block) (m : Machine), runBlock host scope body m = .ok (.returned v) m' →
      ∃ inner m₁ p, innerScope scope m = .ok inner m₁ ∧
        ComesTo host inner m₁ body.stmts p ∧ p.value host = .ok v m'
  | .mk stmts _, m, h => by
    rw [runBlock_eq_of_innerScope rfl] at h
    obtain ⟨p, hcomes, hvalue⟩ := exists_comesTo host _ v m' stmts .nil _ h
    exact ⟨_, _, p, rfl, hcomes, hvalue⟩

/-- A conditional that returns selects a block, which comes to a `return`. -/
theorem exists_selects (host : Host) (scope : ScopeId) (v : Value) (m' : Machine) :
    ∀ (c : Conditional) (m : Machine), runConditional host scope c m = .ok (.returned v) m' →
      ∃ body m₁ inner m₂ p, Selects host scope m c body m₁ ∧ innerScope scope m₁ = .ok inner m₂ ∧
        ComesTo host inner m₂ body.stmts p ∧ p.value host = .ok v m'
  | .mk condition thenBlock otherwise span, m, h => by
    rw [runConditional] at h
    obtain ⟨w, m₁, hcondition, hbranch⟩ := Eval.exists_of_bind_ok h
    by_cases htruthy : w.isTruthy = true
    · rw [if_pos htruthy] at hbranch
      obtain ⟨inner, m₂, p, hcomes⟩ := exists_comesTo_block host scope v m' thenBlock m₁ hbranch
      exact ⟨thenBlock, m₁, inner, m₂, p, .thenBlock hcondition htruthy, hcomes⟩
    · rw [if_neg htruthy] at hbranch
      have hfalsy : w.isTruthy = false := by simpa using htruthy
      match otherwise, hbranch with
      | .absent, hbranch =>
        rw [runElse] at hbranch
        cases hbranch
      | .block body, hbranch =>
        rw [runElse] at hbranch
        obtain ⟨inner, m₂, p, hcomes⟩ := exists_comesTo_block host scope v m' body m₁ hbranch
        exact ⟨body, m₁, inner, m₂, p, .elseBlock hcondition hfalsy, hcomes⟩
      | .elseIf next, hbranch =>
        rw [runElse] at hbranch
        obtain ⟨body, m₂, inner, m₃, p, hselects, hcomes⟩ :=
          exists_selects host scope v m' next m₁ hbranch
        exact ⟨body, m₂, inner, m₃, p, .elseIf hcondition hfalsy hselects, hcomes⟩

end

/-- Statements return if and only if they come to a `return` whose value can be evaluated. -/
theorem runStmts_eq_returned :
    runStmts host scope stmts last m = .ok (.returned v) m' ↔
      ∃ p, ComesTo host scope m stmts p ∧ p.value host = .ok v m' := by
  constructor
  · exact exists_comesTo host scope v m' stmts last m
  · rintro ⟨p, hcomes, hvalue⟩
    rw [hcomes.run_eq, hvalue]

/-! ### Calls and units -/

/-- The scope of a call, and the machine as the body of the function finds it. -/
def Closure.enter (f : Closure) (values : List Value) (m : Machine) : ScopeId × Machine :=
  let made := m.store.newScope (some f.scope) (bindParams f.function.params values)
  (made.1, { m with store := made.2, unit := f.origin })

/-- What a call makes of the ways in which the body of the function can end. -/
theorem invoke_apply (host : Host) (f : Closure) (receiver : Option Value) (args : List Value)
    (span : Span) (m : Machine) (hgiven : (receiver.toList ++ args).length = f.arity) :
    invoke host f receiver args span m =
      match runStmts host (f.enter (receiver.toList ++ args) m).1 f.function.body.stmts .nil
        (f.enter (receiver.toList ++ args) m).2 with
      | .ok (.returned v) m' => .ok v { m' with unit := m.unit }
      | .ok (.finished _) m' => .ok .nil { m' with unit := m.unit }
      | .error d m' => .error (d.withUnit f.origin) { m' with unit := m.unit } := by
  -- The scope of the call is still made on behalf of the unit that calls.
  have hscope : Eval.withStore (·.newScope (some f.scope)
      (bindParams f.function.params (receiver.toList ++ args))) m =
        .ok (f.enter (receiver.toList ++ args) m).1
          { (f.enter (receiver.toList ++ args) m).2 with unit := m.unit } := rfl
  -- The body is run on behalf of the unit of the function.
  have hunit : ({ (f.enter (receiver.toList ++ args) m).2 with unit := f.origin } : Machine) =
      (f.enter (receiver.toList ++ args) m).2 := rfl
  rw [invoke, if_neg (not_not_intro hgiven), Eval.bind_eq, hscope]
  dsimp only
  rw [Eval.bind_eq, Eval.inUnit]
  dsimp only
  rw [hunit]
  cases runStmts host (f.enter (receiver.toList ++ args) m).1 f.function.body.stmts .nil
    (f.enter (receiver.toList ++ args) m).2 with
  | ok completion m' => cases completion <;> rfl
  | error d m' => rfl

/-- What the evaluation of a unit makes of the ways in which its statements can end. -/
theorem runProgram_apply (host : Host) (program : Program) (scope : ScopeId) (unit : String)
    (m : Machine) :
    runProgram host program scope unit m =
      match runStmts host scope program.stmts .nil { m with unit := unit } with
      | .ok (.returned v) m' => .ok v { m' with unit := m.unit }
      | .ok (.finished v) m' => .ok v { m' with unit := m.unit }
      | .error d m' => .error (d.withUnit unit) { m' with unit := m.unit } := by
  rw [runProgram, Eval.bind_eq, Eval.inUnit]
  cases runStmts host scope program.stmts .nil { m with unit := unit } with
  | ok completion m' => cases completion <;> rfl
  | error d m' => rfl

end Runs

/-- **A `return` stops the nearest call or unit around it, and nothing else sees it.** Where `return`s
travel as faults do, expressions, calls and loads still never end with one: all of them are those of the
evaluator, which have no such end. Statements end with one if and only if they come to a `return` that
stands among them and gives back a value, and the machine is the one right after this was evaluated. The
value is that of the call, or of the unit, whose statements they are. -/
theorem return_stops_nearest (setting : Setting) (frames : Nat) :
    let host := Host.withFrames setting frames
    let unwinding := Unwinding.Host.withFrames setting frames
    (∀ scope e, Unwinding.evalExpr unwinding scope e = .ofEval (evalExpr host scope e) ∧
      (Unwinding.evalExpr unwinding scope e).NeverReturns) ∧
    (∀ callee args span, unwinding.call callee args span = .ofEval (host.call callee args span) ∧
      (unwinding.call callee args span).NeverReturns) ∧
    (∀ name, unwinding.load name = .ofEval (host.load name) ∧ (unwinding.load name).NeverReturns) ∧
    (∀ scope stmts last, Unwinding.runStmts unwinding scope stmts last =
        .ofCompletion (runStmts host scope stmts last) ∧
      ∀ m v m', Unwinding.runStmts unwinding scope stmts last m = .error (.returned v) m' ↔
        ∃ p, ComesTo host scope m stmts p ∧ p.value host = .ok v m') ∧
    (∀ f receiver args span m p v m', (receiver.toList ++ args).length = f.arity →
      ComesTo host (f.enter (receiver.toList ++ args) m).1 (f.enter (receiver.toList ++ args) m).2
        f.function.body.stmts p → p.value host = .ok v m' →
      invoke host f receiver args span m = .ok v { m' with unit := m.unit }) ∧
    ∀ program scope unit m p v m', ComesTo host scope { m with unit := unit } program.stmts p →
      p.value host = .ok v m' →
      runProgram host program scope unit m = .ok v { m' with unit := m.unit } := by
  intro host unwinding
  have hhost : unwinding = .ofHost host := Unwinding.Host.withFrames_eq setting frames
  rw [hhost]
  refine ⟨fun scope e => ?_, fun callee args span => ⟨rfl, Unwinding.neverReturns_ofEval _⟩,
    fun name => ⟨rfl, Unwinding.neverReturns_ofEval _⟩, fun scope stmts last => ?_, ?_, ?_⟩
  · rw [Unwinding.evalExpr_eq]
    exact ⟨rfl, Unwinding.neverReturns_ofEval _⟩
  · rw [Unwinding.runStmts_eq]
    refine ⟨rfl, fun m v m' => ?_⟩
    rw [Unwinding.ofCompletion_eq_returned]
    exact runStmts_eq_returned
  · intro f receiver args span m p v m' hgiven hcomes hvalue
    rw [invoke_apply host f receiver args span m hgiven, hcomes.run_eq, hvalue]
  · intro program scope unit m p v m' hcomes hvalue
    rw [runProgram_apply, hcomes.run_eq, hvalue]

/-- `if 9 > n { s }` -/
def ifNineAbove (n : Int64) (s : Stmt) : Stmt :=
  let span := Span.point Position.start
  .conditional
    (.mk (.binary span (.int span 9) .gt (.int span n)) (.mk [s] span) .absent span)

/-- `fx find() { if 9 > 0 { if 9 > 5 { return "deep" } } return "fell through" }` -/
def findDeep : Closure :=
  let span := Span.point Position.start
  let back (s : String) : Stmt := .giveBack (some (.string span s)) span
  let body : List Stmt := [ifNineAbove 0 (ifNineAbove 5 (back "deep")), back "fell through"]
  ⟨0, some "find", .mk [] (.mk body span) span, 0, "main"⟩

/-- The `return` in the inner branch is the one that the run comes to: it stands in the third of the
scopes that the call makes. The one after the branches is skipped. -/
theorem return_stops_nearest_findDeep :
    let host := Host.withFrames ⟨4, Library.resolve .empty⟩ 4
    let m : Machine := { (default : Machine) with store := ⟨#[⟨none, .empty⟩], #[], 1⟩ }
    let body := (findDeep.enter [] m).2
    let deep : ReturnPoint := ⟨some (.string (Span.point Position.start) "deep"), 3,
      (innerScope 2).after ((innerScope 1).after body)⟩
    ComesTo host 1 body findDeep.function.body.stmts deep ∧
      invoke host findDeep none [] (Span.point Position.start) m =
        .ok (.string "deep") { deep.machine with unit := m.unit } := by
  intro host m body deep
  have hinner : ComesTo host 2 ((innerScope 1).after body)
      [ifNineAbove 5 (.giveBack deep.value? (Span.point Position.start))] deep :=
    .inside (.conditional (.thenBlock rfl rfl)) rfl .here
  have hcomes : ComesTo host 1 body findDeep.function.body.stmts deep :=
    .inside (.conditional (.thenBlock rfl rfl)) rfl hinner
  have hstops := (return_stops_nearest ⟨4, Library.resolve .empty⟩ 4).2.2.2.2.1
  exact ⟨hcomes, hstops findDeep none [] _ m deep _ _ rfl hcomes rfl⟩

end ScriptLang
