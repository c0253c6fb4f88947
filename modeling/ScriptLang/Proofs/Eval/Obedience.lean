import ScriptLang.Proofs.Eval.Discipline

/-!
# Every run obeys a discipline

What the steps of the evaluator obey is obeyed by expressions, statements, calls and units, and by the
calls and loads of the host with any number of frames: each makes values of admitted ones, and runs code
in scopes that it may run in.

## Main definitions

* `Discipline.HostKeeps`: the calls and loads of a host obey

## Main results

* `Discipline.runStmts_keeps`, `Discipline.runBlock_keeps`: code on such a host obeys
* `Discipline.withFrames_keeps`: the host with any number of frames is one
-/

namespace ScriptLang.Discipline

variable {D : Discipline} {host : Host} {s : D.State} {scope : ScopeId}

/-- The calls and loads of the host obey the discipline. -/
structure HostKeeps (D : Discipline) (host : Host) : Prop where
  call {s : D.State} {callee : ScriptLang.Value} {args : List ScriptLang.Value} {span : Span} :
    D.Value s callee → D.Values s args → D.Keeps s (host.call callee args span) D.Value
  load {s : D.State} {name : String} : D.Keeps s (host.load name) D.Any

theorem value_nil : D.Value s .nil := trivial

theorem value_module (m : ModuleRef) : D.Value s (.module m) := trivial

/-! ### Elementary steps -/

theorem lookup_keeps (scope : ScopeId) (name : String) :
    D.Keeps s (Eval.readStore (·.lookup? scope name))
      fun s found => ∀ v, found = some v → D.Value s v :=
  .readStore fun h _ hv => h.holds.lookup? hv

theorem readName_keeps {name : String} {span : Span} :
    D.Keeps s (readName scope name span) D.Value := by
  refine (lookup_keeps scope name).bind fun found s' _ hfound => ?_
  cases found with
  | some v => exact .pure (hfound v rfl)
  | none =>
    cases Builtin.ofName? name with
    | some b => exact .pure trivial
    | none => exact .failAt

theorem readSelf_keeps {span : Span} : D.Keeps s (readSelf scope span) D.Value := by
  refine (lookup_keeps scope selfName).bind fun found s' _ hfound => ?_
  cases found with
  | some v => exact .pure (hfound v rfl)
  | none => exact .failAt

theorem readField_keeps {i : Instance} {member : Ident} (hi : D.Object s i) :
    D.Keeps s (readField i member) D.Value := by
  have hread : D.Keeps s (Eval.readStore fun s => (s.bindings i.fields).get? member.name)
      fun s found => ∀ v, found = some v → D.Value s v :=
    .readStore fun h v hv => h.holds.bindings i.fields member.name v hv
  refine hread.bind fun found s' hs hfound => ?_
  cases found with
  | some v => exact .pure (hfound v rfl)
  | none =>
    cases hmethod : i.ofClass.methods.get? member.name with
    | some method =>
      have hi' := hi.mono hs
      exact .pure ⟨hi'.methods member.name method hmethod, hi'⟩
    | none => exact .failAt

theorem readExport_keeps {m : ModuleRef} {member : Ident} :
    D.Keeps s (readExport m member) D.Value := by
  have hread : D.Keeps s (Eval.readStore (·.module? m))
      fun s found => ∀ module, found = some module → module.members.All (D.Value s) :=
    .readStore fun h module hmodule => h.holds.members m module hmodule
  refine hread.bind fun found s' _ hfound => ?_
  cases found with
  | some module =>
    exact .ofExceptAt (module.read?_outcome member.name) fun v hv =>
      hfound module rfl member.name v hv
  | none => exact .failAt

theorem readMember_keeps {object : ScriptLang.Value} {member : Ident} (hobject : D.Value s object) :
    D.Keeps s (readMember object member) D.Value := by
  cases object with
  | object i => exact readField_keeps hobject
  | ofClass c =>
    rw [readMember]
    cases hmethod : c.methods.get? member.name with
    | some method => exact .pure (hobject member.name method hmethod)
    | none => exact .failAt
  | module m => exact readExport_keeps
  | _ => exact .failAt

theorem writeMember_keeps {span : Span} {e value : Expr} {object v : ScriptLang.Value}
    {member : Ident} (hruns : D.Runs s scope (.expr (.assignMember span e member value)))
    (hobject : D.Value s object) (hv : D.Value s v) :
    D.Keeps s (writeMember object member v) D.Value := by
  cases object with
  | object i =>
    exact (Keeps.writeField hruns hobject.fields hv).bind fun _ _ hs _ => .pure (hv.mono hs)
  | _ => exact .failAt

theorem applyUnary_keeps {op : UnaryOp} {v : ScriptLang.Value} {span : Span} :
    D.Keeps s (applyUnary op v span) D.Value := by
  cases op with
  | not => exact .pure trivial
  | negate => exact .ofExceptAt v.negate?_outcome fun _ => value_of_isData

theorem applyBinary_keeps {op : BinaryOp} {left right : ScriptLang.Value} {span : Span}
    (hright : D.Value s right) : D.Keeps s (applyBinary op left right span) D.Value := by
  unfold applyBinary
  split
  · exact .pure hright
  · exact .pure hright
  · exact .ofExceptAt (Value.binary?_outcome _ left right) fun _ => value_of_isData

theorem newMethods_keeps {methods : List Definition} {table : Table ScriptLang.Closure}
    (hruns : D.RunsAll s scope (methods.map fun d => .function d.function))
    (htable : table.All (D.Closure s)) :
    D.Keeps s (newMethods scope methods table) fun s table => table.All (D.Closure s) := by
  induction methods generalizing s table with
  | nil => exact .pure htable
  | cons d ds ih =>
    obtain ⟨hd, hds⟩ := List.forall_mem_cons.1 hruns
    refine (Keeps.newClosure hd).bind fun method s₁ h₁ hmethod => ?_
    have htable' : table.All (D.Closure s₁) :=
      fun name f hf => D.closure_mono h₁ (htable name f hf)
    exact ih (RunsAll.mono h₁ hds) (htable'.insert hmethod)

theorem declareClass_keeps {name : Ident} {methods : List Definition} {span : Span}
    (hruns : D.Runs s scope (.stmt (.declareClass name methods span))) :
    D.Keeps s (declareClass scope name.name methods) D.Value := by
  refine (newMethods_keeps (runsAll_children hruns) .empty).bind fun table s₁ h₁ htable => ?_
  refine Keeps.newObject.bind fun id s₂ h₂ _ => ?_
  have hclass : D.Value s₂ (.ofClass ⟨id, name.name, table⟩) :=
    fun member f hf => D.closure_mono h₂ (htable member f hf)
  have hruns₂ := D.runs_mono (D.trans h₁ h₂) hruns
  exact (Keeps.define hruns₂ .declareClass hclass).bind fun _ s₃ h₃ _ => .pure (hclass.mono h₃)

theorem defineFunction_keeps {d : Definition} (hruns : D.Runs s scope (.stmt (.define d))) :
    D.Keeps s (defineFunction scope d) D.Value := by
  refine (Keeps.newClosure (D.runs_child hruns List.mem_cons_self)).bind fun f s₁ h₁ hf => ?_
  have hvalue : D.Value s₁ (.function f) := hf
  exact (Keeps.define (D.runs_mono h₁ hruns) .define hvalue).bind
    fun _ s₂ h₂ _ => .pure (hvalue.mono h₂)

theorem runBuiltin_keeps {b : Builtin} {args : List ScriptLang.Value} :
    D.Keeps s (b.run args) D.Value := by
  have houtcome : D.Keeps s (Eval.ofExcept (b.outcome? args)) fun _ r => r.1.isData = true :=
    .ofExcept (b.outcome?_outcome args) fun _ hdata => hdata
  refine houtcome.bind fun result s₁ _ hdata => ?_
  obtain ⟨v, line⟩ := result
  cases line with
  | some line => exact (Keeps.print line).bind fun _ _ _ _ => .pure (value_of_isData hdata)
  | none => exact .pure (value_of_isData hdata)

/-! ### Expressions and statements

The recursion is that of the evaluator, over the tree. What may run in a scope may run there
throughout. -/

mutual

theorem evalExpr_keeps (hosts : D.HostKeeps host) {s : D.State} :
    ∀ e : Expr, D.Runs s scope (.expr e) → D.Keeps s (evalExpr host scope e) D.Value
  | .int _ _, _ | .float _ _, _ | .string _ _, _ | .bool _ _, _ | .nil _, _ => .pure trivial
  | .selfRef _, _ => readSelf_keeps
  | .name _ _, _ => readName_keeps
  | .unary _ _ operand, hruns =>
    (evalExpr_keeps hosts operand (D.runs_child hruns List.mem_cons_self)).bind
      fun _ _ _ _ => applyUnary_keeps
  | .binary _ left op right, hruns => by
    have hleft := D.runs_child hruns List.mem_cons_self
    have hright := D.runs_child hruns (List.mem_cons_of_mem _ List.mem_cons_self)
    refine (evalExpr_keeps hosts left hleft).bind fun l s₁ h₁ hl => ?_
    by_cases decided : isDecided op l = true
    · simp only [if_pos decided]
      exact .pure hl
    · simp only [if_neg decided]
      refine (evalExpr_keeps hosts right (D.runs_mono h₁ hright)).bind fun r s₂ h₂ hr => ?_
      exact applyBinary_keeps hr
  -- Here the evaluator asks its host.
  | .call _ callee args, hruns => by
    obtain ⟨hcallee, hargs⟩ := List.forall_mem_cons.1 (runsAll_children hruns)
    refine (evalExpr_keeps hosts callee hcallee).bind fun f s₁ h₁ hf => ?_
    refine (evalArgs_keeps hosts args (RunsAll.mono h₁ hargs)).bind fun vs s₂ h₂ hvs => ?_
    exact hosts.call (hf.mono h₂) hvs
  | .member _ object _, hruns =>
    (evalExpr_keeps hosts object (D.runs_child hruns List.mem_cons_self)).bind
      fun _ _ _ hv => readMember_keeps hv
  | .assignName _ _ value, hruns => by
    refine (evalExpr_keeps hosts value (D.runs_child hruns List.mem_cons_self)).bind
      fun v s₁ h₁ hv => ?_
    exact (Keeps.assign (D.runs_mono h₁ hruns) hv).bind fun _ s₂ h₂ _ => .pure (hv.mono h₂)
  | .assignMember _ object _ value, hruns => by
    have hobject := D.runs_child hruns List.mem_cons_self
    have hvalue := D.runs_child hruns (List.mem_cons_of_mem _ List.mem_cons_self)
    refine (evalExpr_keeps hosts object hobject).bind fun o s₁ h₁ ho => ?_
    refine (evalExpr_keeps hosts value (D.runs_mono h₁ hvalue)).bind fun v s₂ h₂ hv => ?_
    exact writeMember_keeps (D.runs_mono (D.trans h₁ h₂) hruns) (ho.mono h₂) hv
  | .lambda _ _, hruns =>
    (Keeps.newClosure (D.runs_child hruns List.mem_cons_self)).bind fun _ _ _ hf => .pure hf

theorem evalArgs_keeps (hosts : D.HostKeeps host) {s : D.State} :
    ∀ es : List Expr, D.RunsAll s scope (es.map .expr) →
      D.Keeps s (evalArgs host scope es) D.Values
  | [], _ => .pure (List.forall_mem_nil _)
  | e :: es, hruns => by
    obtain ⟨he, hes⟩ := List.forall_mem_cons.1 hruns
    refine (evalExpr_keeps hosts e he).bind fun v s₁ h₁ hv => ?_
    refine (evalArgs_keeps hosts es (RunsAll.mono h₁ hes)).bind fun vs s₂ h₂ hvs => ?_
    exact .pure (List.forall_mem_cons.2 ⟨hv.mono h₂, hvs⟩)

end

/-- Here it asks again. -/
theorem loadModules_keeps (hosts : D.HostKeeps host) {all paths : List ModulePath} {span : Span}
    {last : ScriptLang.Value} (hruns : D.Runs s scope (.stmt (.load all span))) (hpaths : paths ⊆ all)
    (hlast : D.Value s last) : D.Keeps s (loadModules host scope paths last) D.Value := by
  induction paths generalizing s last with
  | nil => exact .pure hlast
  | cons p ps ih =>
    obtain ⟨hp, hps⟩ := List.cons_subset.1 hpaths
    refine (Keeps.mapDiagnostic hosts.load).bind fun m s₁ h₁ _ => ?_
    have hruns₁ := D.runs_mono h₁ hruns
    refine (Keeps.define hruns₁ (.load hp) (value_module m)).bind fun _ s₂ h₂ _ => ?_
    exact ih (D.runs_mono h₂ hruns₁) hps (value_module m)

/-- The value that the statements ended with is admitted. -/
def Completed (D : Discipline) (s : D.State) : Completion → Prop
  | .finished v | .returned v => D.Value s v

mutual

theorem runStmt_keeps (hosts : D.HostKeeps host) {s : D.State} {scope : ScopeId} :
    ∀ stmt : Stmt, D.Runs s scope (.stmt stmt) →
      D.Keeps s (runStmt host scope stmt) D.Completed
  | .define _, hruns => (defineFunction_keeps hruns).bind fun _ _ _ hv => .pure hv
  | .declareClass _ _ _, hruns => (declareClass_keeps hruns).bind fun _ _ _ hv => .pure hv
  | .conditional c, hruns =>
    runConditional_keeps hosts c (D.runs_child hruns List.mem_cons_self)
  | .giveBack none _, _ => .pure trivial
  | .giveBack (some e) _, hruns =>
    (evalExpr_keeps hosts e (D.runs_child hruns List.mem_cons_self)).bind
      fun _ _ _ hv => .pure hv
  | .load _ _, hruns =>
    (loadModules_keeps hosts hruns (List.Subset.refl _) value_nil).bind fun _ _ _ hv => .pure hv
  | .package _ _, _ => .pure trivial
  | .block body, hruns => runBlock_keeps hosts body (D.runs_child hruns List.mem_cons_self)
  | .expr e, hruns =>
    (evalExpr_keeps hosts e (D.runs_child hruns List.mem_cons_self)).bind
      fun _ _ _ hv => .pure hv

theorem runStmts_keeps (hosts : D.HostKeeps host) {s : D.State} {scope : ScopeId} :
    ∀ (stmts : List Stmt) (last : ScriptLang.Value), D.RunsAll s scope (stmts.map .stmt) →
      D.Value s last → D.Keeps s (runStmts host scope stmts last) D.Completed
  | [], _, _, hlast => .pure hlast
  | stmt :: rest, _, hruns, _ => by
    obtain ⟨hstmt, hrest⟩ := List.forall_mem_cons.1 hruns
    refine (runStmt_keeps hosts stmt hstmt).bind fun completion s₁ h₁ hcompletion => ?_
    cases completion with
    | finished v => exact runStmts_keeps hosts rest v (RunsAll.mono h₁ hrest) hcompletion
    -- The rest is left out.
    | returned v => exact .pure hcompletion

theorem runBlock_keeps (hosts : D.HostKeeps host) {s : D.State} {scope : ScopeId} :
    ∀ b : Block, D.Runs s scope (.block b) → D.Keeps s (runBlock host scope b) D.Completed
  | .mk stmts _, hruns =>
    (Keeps.innerScope (D.open_of_runs hruns)).bind fun _ _ _ hinner =>
      runStmts_keeps hosts stmts .nil (runsAll_children (hinner.2 _ hruns)) value_nil

theorem runConditional_keeps (hosts : D.HostKeeps host) {s : D.State} {scope : ScopeId} :
    ∀ c : Conditional, D.Runs s scope (.conditional c) →
      D.Keeps s (runConditional host scope c) D.Completed
  | .mk condition thenBlock otherwise _, hruns => by
    obtain ⟨hcondition, hbranches⟩ := List.forall_mem_cons.1 (runsAll_children hruns)
    obtain ⟨hthen, helse⟩ := List.forall_mem_cons.1 hbranches
    refine (evalExpr_keeps hosts condition hcondition).bind fun v s₁ h₁ _ => ?_
    by_cases truthy : v.isTruthy = true
    · simp only [if_pos truthy]
      exact runBlock_keeps hosts thenBlock (D.runs_mono h₁ hthen)
    · simp only [if_neg truthy]
      exact runElse_keeps hosts otherwise (RunsAll.mono h₁ helse)

theorem runElse_keeps (hosts : D.HostKeeps host) {s : D.State} {scope : ScopeId} :
    ∀ b : ElseBranch, D.RunsAll s scope b.children →
      D.Keeps s (runElse host scope b) D.Completed
  | .absent, _ => .pure trivial
  | .block body, hruns => runBlock_keeps hosts body (hruns _ List.mem_cons_self)
  | .elseIf c, hruns => runConditional_keeps hosts c (hruns _ List.mem_cons_self)

end

/-! ### Calls and units -/

section Calls

variable (hosts : D.HostKeeps host)
include hosts

theorem invoke_keeps {f : ScriptLang.Closure} {receiver : Option ScriptLang.Value}
    {args : List ScriptLang.Value} {span : Span} (hf : D.Closure s f)
    (hreceiver : D.Values s receiver.toList) (hargs : D.Values s args) :
    D.Keeps s (invoke host f receiver args span) D.Value := by
  rw [invoke]
  by_cases mismatch : (receiver.toList ++ args).length ≠ f.arity
  · simp only [if_pos mismatch]
    exact .failAt
  · simp only [if_neg mismatch]
    have hvalues : D.Values s (receiver.toList ++ args) :=
      List.forall_mem_append.2 ⟨hreceiver, hargs⟩
    refine (Keeps.callScope hf hvalues (Decidable.not_not.1 mismatch)).bind fun scope s₁ h₁ hruns => ?_
    have hbody := runStmts_keeps hosts _ .nil (runsAll_children hruns) value_nil
    refine (Keeps.inUnit hbody).bind fun completion s₂ _ hcompletion => ?_
    cases completion with
    | finished v => exact .pure value_nil
    | returned v => exact .pure hcompletion

theorem instantiate_keeps {c : Class} {args : List ScriptLang.Value} {span : Span}
    (hc : c.All (D.Closure s)) (hargs : D.Values s args) :
    D.Keeps s (instantiate host c args span) D.Value := by
  refine (Keeps.fieldScope c).bind fun fields s₁ h₁ hfields => ?_
  have hobject : D.Value s₁ (.object ⟨c, fields⟩) :=
    ⟨Class.All.mono (fun _ => D.closure_mono h₁) hc, hfields⟩
  cases hinit : c.methods.get? initName with
  | some init =>
    have hmethod : D.Closure s₁ init := hobject.methods initName init hinit
    have hreceiver : D.Values s₁ (some (.object ⟨c, fields⟩)).toList :=
      List.forall_mem_singleton.2 hobject
    refine (invoke_keeps hosts hmethod hreceiver (hargs.mono h₁)).bind fun _ s₂ h₂ _ => ?_
    exact .pure (hobject.mono h₂)
  | none =>
    cases args with
    | nil => exact .pure hobject
    | cons _ _ => exact .failAt

theorem applyValue_keeps {callee : ScriptLang.Value} {args : List ScriptLang.Value} {span : Span}
    (hcallee : D.Value s callee) (hargs : D.Values s args) :
    D.Keeps s (applyValue host callee args span) D.Value := by
  cases callee with
  | function f => exact invoke_keeps hosts hcallee (List.forall_mem_nil _) hargs
  | method m =>
    have hreceiver : D.Values s (some (.object m.receiver)).toList :=
      List.forall_mem_singleton.2 hcallee.2
    exact invoke_keeps hosts hcallee.1 hreceiver hargs
  | builtin b => exact .mapDiagnostic runBuiltin_keeps
  | ofClass c => exact instantiate_keeps hosts hcallee hargs
  | _ => exact .failAt

theorem runProgram_keeps {program : Program} {unit : String}
    (hruns : D.RunsAll s scope (program.stmts.map .stmt)) :
    D.Keeps s (runProgram host program scope unit) D.Value := by
  have hbody := runStmts_keeps hosts program.stmts .nil hruns value_nil
  refine (Keeps.inUnit hbody).bind fun completion s₁ _ hcompletion => ?_
  cases completion with
  | finished v => exact .pure hcompletion
  | returned v => exact .pure hcompletion

theorem evalModule_keeps {name : String} {source : SourceUnit} (hsource : D.Source source) :
    D.Keeps s (evalModule host name source) fun s module => module.members.All (D.Value s) := by
  rw [evalModule]
  cases hprogram : Program.parse source with
  | error d => exact .throw
  | ok program =>
    refine Keeps.rootScope.bind fun scope s₁ h₁ hhosts => ?_
    have hruns := hhosts.runs source program hsource hprogram
    refine (runProgram_keeps hosts hruns).bind fun _ s₂ _ _ => ?_
    -- The members are what the scope of the module binds.
    have hbindings : D.Keeps s₂ (Eval.readStore (·.bindings scope))
        fun s bindings => bindings.All (D.Value s) :=
      .readStore fun h => h.holds.bindings scope
    exact hbindings.bind fun _ _ _ hmembers => .pure hmembers

end Calls

/-- A frame runs code on a host with one frame less, so the induction is on the frames left. -/
theorem withFrames_keeps {setting : Setting} (hsetting : D.Finds setting) (frames : Nat) :
    D.HostKeeps (Host.withFrames setting frames) := by
  induction frames with
  | zero =>
    constructor
    · intro s callee args span _ _
      exact .failAt
    · intro s name
      change D.Keeps s (loadModule setting.resolve name fun _ =>
        Eval.fail (.tooManyFrames setting.maxFrames)) D.Any
      exact .load fun _ _ => .throw
  | succ frames ih =>
    constructor
    · intro s callee args span hcallee hargs
      exact .inFrame (applyValue_keeps ih hcallee hargs)
    · intro s name
      change D.Keeps s (loadModule setting.resolve name fun source => Eval.inFrame
        (evalModule (Host.withFrames setting frames) (bareName name) source)) D.Any
      exact .load fun found hfound => .inFrame (evalModule_keeps ih (hsetting name found hfound))

end ScriptLang.Discipline
