import ScriptLang.Proofs.Session.Dialogue

/-!
# Moments of a run

While it performs a request, the evaluator turns from code to the code that stands in it, to the bodies
of functions that are called, and to the statements of modules that are loaded. A moment is a machine
with the code that the evaluator has turned to, the scope that it runs in, and the frames that are left.

What a discipline admits at the beginning of a request it admits at every moment of it, not only where
the request ends.

## Main definitions

* `Moment`: where the evaluator is
* `Moment.Turns`: where it turns to from there
* `Moment.StaysIn`, `Moment.AsksFor`: it turns to other code without a load, or asks for a module
* `Request.Visits`: the moments of a request
* `Moment.Closed`: a relation between machines that holds from moment to moment
* `Discipline.Meets`: what a discipline knows of a moment

## Main results

* `Moment.Closed.staysIn`, `Moment.Closed.loaded`: such a relation holds as long as no load begins, and
  again from there on
* `Discipline.Meets.turns`: it goes on from moment to moment
* `Discipline.Knows.visits`: so it knows all moments of a request
-/

namespace ScriptLang

/-- The evaluator has turned to some code. -/
structure Moment where
  /-- The frames that are left. -/
  frames : Nat
  scope : ScopeId
  node : Node
  machine : Machine

/-- Run some code for what it does to the machine. -/
def Node.run (host : Host) (scope : ScopeId) : Node → Eval Unit
  | expr e => discard (evalExpr host scope e)
  | function f => discard (newClosure scope none f)
  | block b => discard (runBlock host scope b)
  | conditional c => discard (runConditional host scope c)
  | stmt s => discard (runStmt host scope s)

/-- Whether what stands in the code runs in another scope. -/
def Node.opensScope : Node → Bool
  | block _ | function _ => true
  | _ => false

/-- Some of the code has run, in order. The rest has been left out. -/
inductive Ran (host : Host) (scope : ScopeId) : List Node → Machine → Machine → Prop where
  | nil {m : Machine} : Ran host scope [] m m
  | skip {x : Node} {xs : List Node} {m m' : Machine} :
    Ran host scope xs m m' → Ran host scope (x :: xs) m m'
  | cons {x : Node} {xs : List Node} {m m' m'' : Machine} :
    x.run host scope m = .ok () m' → Ran host scope xs m' m'' → Ran host scope (x :: xs) m m''

/-- Calling the value calls the function, with the receiver if there is one. -/
inductive Value.Invokes : Value → Machine → Closure → Option Value → Machine → Prop where
  | function {f : Closure} {m : Machine} : Invokes (.function f) m f none m
  | method {b : BoundMethod} {m : Machine} :
    Invokes (.method b) m b.method (some (.object b.receiver)) m
  /-- The object that the function sets up has been made. -/
  | init {c : Class} {f : Closure} {fields : ScopeId} {m m' : Machine} :
    c.methods.get? initName = some f →
    Eval.withStore (·.newScope none Table.empty) m = .ok fields m' →
    Invokes (.ofClass c) m f (some (.object ⟨c, fields⟩)) m'

namespace Moment

variable (setting : Setting)

/-- The evaluator turns to one of the nodes when it has run some of those before it. -/
inductive Among (frames : Nat) (scope : ScopeId) (xs : List Node) (m : Machine) : Moment → Prop where
  | intro {before after : List Node} {x : Node} {m' : Machine} : xs = before ++ x :: after →
    Ran (Host.withFrames setting frames) scope before m m' →
    Among frames scope xs m ⟨frames, scope, x, m'⟩

/-- A call turns to the statements of a body. -/
inductive Called : Nat → Value → List Value → Machine → Moment → Prop where
  | body {frames : Nat} {callee : Value} {args : List Value} {m m' m'' : Machine} {f : Closure}
    {receiver : Option Value} {inner : ScopeId} {y : Moment} :
    callee.Invokes { m with depth := m.depth + 1 } f receiver m' →
    (receiver.toList ++ args).length = f.arity →
    Eval.withStore (·.newScope (some f.scope)
      (bindParams f.function.params (receiver.toList ++ args))) m' = .ok inner m'' →
    Among setting frames inner (f.function.body.stmts.map .stmt) { m'' with unit := f.origin } y →
    Called (frames + 1) callee args m y

/-- A load turns to the statements of a module. -/
inductive Loaded : Nat → String → Machine → Moment → Prop where
  | body {frames : Nat} {name : String} {m m' : Machine} {found : ResolvedModule}
    {registry : Registry ModuleRef} {program : Program} {root : ScopeId} {y : Moment} :
    setting.resolve name = .ok found →
    m.registry.start? found.key (bareName name) = .ok (.started registry) →
    Program.parse ⟨found.key, found.text⟩ = .ok program →
    Eval.withStore (·.newScope none Table.empty)
      { m.beginLoad found registry with depth := m.depth + 1 } = .ok root m' →
    Among setting frames root (program.stmts.map .stmt) { m' with unit := found.key } y →
    Loaded (frames + 1) name m y

/-- The evaluator turns from some code to other code. -/
inductive Turns : Moment → Moment → Prop where
  | part {frames : Nat} {scope : ScopeId} {x : Node} {m : Machine} {y : Moment} :
    x.opensScope = false → Among setting frames scope x.children m y →
    Turns ⟨frames, scope, x, m⟩ y
  | block {frames : Nat} {scope inner : ScopeId} {b : Block} {m m' : Machine} {y : Moment} :
    innerScope scope m = .ok inner m' → Among setting frames inner (b.stmts.map .stmt) m' y →
    Turns ⟨frames, scope, .block b, m⟩ y
  | call {frames : Nat} {scope : ScopeId} {span : Span} {callee : Expr} {args : List Expr}
    {m m' m'' : Machine} {f : Value} {vs : List Value} {y : Moment} :
    evalExpr (Host.withFrames setting frames) scope callee m = .ok f m' →
    evalArgs (Host.withFrames setting frames) scope args m' = .ok vs m'' →
    Called setting frames f vs m'' y →
    Turns ⟨frames, scope, .expr (.call span callee args), m⟩ y
  | load {frames : Nat} {scope : ScopeId} {span : Span} {before after : List ModulePath}
    {path : ModulePath} {m m' : Machine} {v : Value} {y : Moment} :
    loadModules (Host.withFrames setting frames) scope before .nil m = .ok v m' →
    Loaded setting frames path.path m' y →
    Turns ⟨frames, scope, .stmt (.load (before ++ path :: after) span), m⟩ y

/-- The evaluator turns to other code without a load. -/
def StaysIn (x y : Moment) : Prop :=
  x.Turns setting y ∧ ∀ paths span, x.node ≠ .stmt (.load paths span)

/-- A load statement asks for a module when it has loaded those before it. -/
inductive AsksFor : Moment → String → Machine → Prop where
  | intro {frames : Nat} {scope : ScopeId} {span : Span} {before after : List ModulePath}
    {path : ModulePath} {m m' : Machine} {v : Value} :
    loadModules (Host.withFrames setting frames) scope before .nil m = .ok v m' →
    AsksFor ⟨frames, scope, .stmt (.load (before ++ path :: after) span), m⟩ path.path m'

end Moment

namespace Request

/-- The request turns to the first code, or to code behind it at the top of the unit. -/
inductive Begins (setting : Setting) : Request → Machine → Moment → Prop where
  | evaluate {source : SourceUnit} {scope : ScopeId} {program : Program} {m : Machine} {y : Moment} :
    Program.parse source = .ok program →
    Moment.Among setting (setting.maxFrames - m.depth) scope (program.stmts.map .stmt)
      { m with unit := source.name } y →
    Begins setting (.evaluate source scope) m y
  | run {program : Program} {scope : ScopeId} {unit : String} {m : Machine} {y : Moment} :
    Moment.Among setting (setting.maxFrames - m.depth) scope (program.stmts.map .stmt)
      { m with unit := unit } y →
    Begins setting (.run program scope unit) m y
  | call {callee : Value} {args : List Value} {span : Span} {m : Machine} {y : Moment} :
    Moment.Called setting (setting.maxFrames - m.depth) callee args m y →
    Begins setting (.call callee args span) m y
  | load {name : String} {m : Machine} {y : Moment} :
    Moment.Loaded setting (setting.maxFrames - m.depth) name m y →
    Begins setting (.load name) m y

/-- The moments of a request. -/
def Visits (setting : Setting) (request : Request) (m : Machine) (y : Moment) : Prop :=
  ∃ x, request.Begins setting m x ∧ Relation.ReflTransGen (Moment.Turns setting) x y

end Request

/-! ### Relations between the machines of moments -/

namespace Moment

variable {setting : Setting} {frames : Nat} {scope : ScopeId} {m m' : Machine} {x y : Moment}

theorem Turns.staysIn_or_asksFor (h : x.Turns setting y) :
    x.StaysIn setting y ∨ ∃ name m, x.AsksFor setting name m ∧ Loaded setting x.frames name m y := by
  cases h with
  | load hbefore hloaded => exact .inr ⟨_, _, .intro hbefore, hloaded⟩
  | @part frames scope x m _ hopens hamong =>
    refine .inl ⟨.part hopens hamong, ?_⟩
    rintro paths span rfl
    -- No code stands in a load statement.
    obtain ⟨hxs, -⟩ := hamong
    simp [Node.children] at hxs
  | block hinner hamong => exact .inl ⟨.block hinner hamong, fun _ _ => nofun⟩
  | call hf hvs hcalled => exact .inl ⟨.call hf hvs hcalled, fun _ _ => nofun⟩

/-- A relation between machines that holds across every step, and when the evaluator turns to other
code. -/
structure Closed (S : Machine → Machine → Prop) : Prop extends StepClosed S where
  withUnit (m : Machine) (unit : String) : S m { m with unit := unit }
  withDepth (m : Machine) (depth : Nat) : S m { m with depth := depth }
  hosts (setting : Setting) (frames : Nat) :
    Congruence.Hosts (fun _ e _ => ∀ m, S m (e.after m)) (Host.withFrames setting frames)
      (Host.withFrames setting frames)

namespace Closed

variable {S : Machine → Machine → Prop} (closed : Closed S)
include closed

theorem run (setting : Setting) (frames : Nat) (scope : ScopeId) (x : Node) (m : Machine) :
    S m ((x.run (Host.withFrames setting frames) scope).after m) := by
  have congruence := closed.congruence
  have hosts := closed.hosts setting frames
  cases x with
  | expr e =>
    rw [Node.run, Eval.after_discard]
    exact congruence.evalExpr hosts scope e m
  | function f =>
    rw [Node.run, Eval.after_discard]
    exact congruence.newClosure scope none f m
  | block b =>
    rw [Node.run, Eval.after_discard]
    exact congruence.runBlock hosts scope b m
  | conditional c =>
    rw [Node.run, Eval.after_discard]
    exact congruence.runConditional hosts scope c m
  | stmt s =>
    rw [Node.run, Eval.after_discard]
    exact congruence.runStmt hosts scope s m

theorem newScope {parent : Option ScopeId} {bindings : Table Value} {id : ScopeId}
    (h : Eval.withStore (·.newScope parent bindings) m = .ok id m') : S m m' :=
  Eval.rel_of_ok (closed.congruence.newScope parent bindings) h

theorem ran {xs : List Node} (h : Ran (Host.withFrames setting frames) scope xs m m') : S m m' := by
  induction h with
  | nil => exact closed.refl _
  | skip _ ih => exact ih
  | cons hrun _ ih => exact closed.trans (Eval.rel_of_ok (closed.run setting frames scope _) hrun) ih

theorem among {xs : List Node} (h : Among setting frames scope xs m y) : S m y.machine := by
  cases h with
  | intro _ hran => exact closed.ran hran

theorem called {callee : Value} {args : List Value} (h : Called setting frames callee args m y) :
    S m y.machine := by
  cases h with
  | @body _ _ _ _ _ m'' _ _ _ _ hinvokes _ hinner hamong =>
    have hentered := closed.withDepth m (m.depth + 1)
    have hbody := closed.trans (closed.withUnit m'' _) (closed.among hamong)
    have hcall := closed.trans (closed.newScope hinner) hbody
    -- Only a class makes something before the call: the scope of the fields.
    cases hinvokes with
    | function | method => exact closed.trans hentered hcall
    | init _ hfields =>
      exact closed.trans hentered (closed.trans (closed.newScope hfields) hcall)

/-- A load turns to its module when it has begun. -/
theorem loaded {name : String} (h : Loaded setting frames name m y) :
    ∃ found registry, setting.resolve name = .ok found ∧
      m.registry.start? found.key (bareName name) = .ok (.started registry) ∧
      S (m.beginLoad found registry) y.machine := by
  cases h with
  | @body _ _ _ m' found registry _ _ _ hfound hstart _ hroot hamong =>
    have hentered := closed.withDepth (m.beginLoad found registry) (m.depth + 1)
    have hbody := closed.trans (closed.withUnit m' _) (closed.among hamong)
    have hinside := closed.trans hentered (closed.trans (closed.newScope hroot) hbody)
    exact ⟨found, registry, hfound, hstart, hinside⟩

/-- One case for each way to turn to code other than a load. -/
theorem staysIn (h : x.StaysIn setting y) : S x.machine y.machine := by
  have congruence := closed.congruence
  obtain ⟨hturns, hnode⟩ := h
  cases hturns with
  | part _ hamong => exact closed.among hamong
  | block hinner hamong => exact closed.trans (closed.newScope hinner) (closed.among hamong)
  | @call frames scope _ callee args _ _ _ _ _ _ hf hvs hcalled =>
    have hosts := closed.hosts setting frames
    have hcallee := Eval.rel_of_ok (congruence.evalExpr hosts scope callee) hf
    have hargs := Eval.rel_of_ok (congruence.evalArgs hosts scope args) hvs
    exact closed.trans hcallee (closed.trans hargs (closed.called hcalled))
  | load => exact absurd rfl (hnode _ _)

theorem reaches (h : Relation.ReflTransGen (StaysIn setting) x y) : S x.machine y.machine := by
  induction h with
  | refl => exact closed.refl _
  | tail _ hstays ih => exact closed.trans ih (closed.staysIn hstays)

theorem asksFor {name : String} (h : x.AsksFor setting name m) : S x.machine m := by
  cases h with
  | @intro frames scope _ before _ _ _ _ _ hbefore =>
    have hosts := closed.hosts setting frames
    exact Eval.rel_of_ok (closed.congruence.loadModules hosts scope before .nil) hbefore

/-- A request turns to code at once, or it is a load. -/
theorem begins {request : Request} (h : request.Begins setting m y) :
    S m y.machine ∨ ∃ name, request = .load name ∧
      Loaded setting (setting.maxFrames - m.depth) name m y := by
  cases h with
  | evaluate _ hamong => exact .inl (closed.trans (closed.withUnit m _) (closed.among hamong))
  | run hamong => exact .inl (closed.trans (closed.withUnit m _) (closed.among hamong))
  | call hcalled => exact .inl (closed.called hcalled)
  | load hloaded => exact .inr ⟨_, rfl, hloaded⟩

end Closed

end Moment

/-! ### Disciplines -/

namespace Discipline

variable {D : Discipline} {setting : Setting} {s : D.State} {scope : ScopeId} {m m' : Machine}
  {frames : Nat} {y : Moment}

/-- The state is one of the machine. -/
structure Describes (D : Discipline) (s : D.State) (m : Machine) : Prop where
  store : D.store s = m.store
  fine : D.Fine s

/-- The state is one of the machine, and the code may run in the scope. -/
structure Meets (D : Discipline) (s : D.State) (y : Moment) : Prop where
  describes : D.Describes s y.machine
  runs : D.Runs s y.scope y.node

/-- What obeys and gives something back leaves a machine with an admitted state. -/
theorem Keeps.of_ok {α : Type} {e : Eval α} {value : D.State → α → Prop} {a : α}
    (h : D.Keeps s e value) (hm : D.Describes s m) (hrun : e m = .ok a m') :
    ∃ s', D.Describes s' m' ∧ D.Later s s' ∧ value s' a := by
  have hends := h m hm.store hm.fine
  rw [hrun] at hends
  cases hends with
  | ok s' hstore hlater hfine ha => exact ⟨s', ⟨hstore, hfine⟩, hlater, ha⟩

theorem Keeps.discard {α : Type} {e : Eval α} {value : D.State → α → Prop} (h : D.Keeps s e value) :
    D.Keeps s (Functor.discard e) D.Any :=
  h.bind fun _ _ _ _ => .pure trivial

section Host

variable {host : Host} (hosts : D.HostKeeps host)
include hosts

theorem run_keeps {x : Node} (hruns : D.Runs s scope x) : D.Keeps s (x.run host scope) D.Any := by
  cases x with
  | expr e => exact (evalExpr_keeps hosts e hruns).discard
  | function f => exact (Keeps.newClosure hruns).discard
  | block b => exact (runBlock_keeps hosts b hruns).discard
  | conditional c => exact (runConditional_keeps hosts c hruns).discard
  | stmt stmt => exact (runStmt_keeps hosts stmt hruns).discard

/-- Some code has run that may run in the scope. -/
theorem Describes.ran {xs : List Node} (hm : D.Describes s m) (hruns : D.RunsAll s scope xs)
    (hran : Ran host scope xs m m') : ∃ s', D.Describes s' m' ∧ D.Later s s' := by
  induction hran generalizing s with
  | nil => exact ⟨s, hm, D.refl s⟩
  | skip _ ih => exact ih hm (List.forall_mem_cons.1 hruns).2
  | cons hrun _ ih =>
    obtain ⟨hx, hxs⟩ := List.forall_mem_cons.1 hruns
    obtain ⟨s', hm', hlater, -⟩ := (run_keeps hosts hx).of_ok hm hrun
    obtain ⟨s'', hm'', hlater'⟩ := ih hm' (RunsAll.mono hlater hxs)
    exact ⟨s'', hm'', D.trans hlater hlater'⟩

end Host

/-- The function that is called is admitted, and so is the receiver. -/
theorem Describes.invokes {callee : ScriptLang.Value} {f : ScriptLang.Closure}
    {receiver : Option ScriptLang.Value} (hm : D.Describes s m) (hcallee : D.Value s callee)
    (h : callee.Invokes m f receiver m') :
    ∃ s', D.Describes s' m' ∧ D.Later s s' ∧ D.Closure s' f ∧ D.Values s' receiver.toList := by
  cases h with
  | function => exact ⟨s, hm, D.refl s, hcallee, List.forall_mem_nil _⟩
  | method => exact ⟨s, hm, D.refl s, hcallee.1, List.forall_mem_singleton.2 hcallee.2⟩
  | @init c _ _ _ _ hinit hnew =>
    obtain ⟨s', hm', hlater, hfields⟩ := (Keeps.fieldScope c).of_ok hm hnew
    have hmethods := Class.All.mono (fun _ => D.closure_mono hlater) hcallee
    exact ⟨s', hm', hlater, hmethods initName f hinit, List.forall_mem_singleton.2 ⟨hmethods, hfields⟩⟩

variable (hsetting : D.Finds setting)
include hsetting

namespace Describes

theorem among {xs : List Node} (hm : D.Describes s m) (hruns : D.RunsAll s scope xs)
    (h : Moment.Among setting frames scope xs m y) : ∃ s', D.Meets s' y := by
  cases h with
  | intro hxs hran =>
    subst hxs
    obtain ⟨hbefore, hrest⟩ := List.forall_mem_append.1 hruns
    obtain ⟨s', hm', hlater⟩ := hm.ran (withFrames_keeps hsetting frames) hbefore hran
    exact ⟨s', hm', D.runs_mono hlater (List.forall_mem_cons.1 hrest).1⟩

theorem called {callee : ScriptLang.Value} {args : List ScriptLang.Value} (hm : D.Describes s m)
    (hcallee : D.Value s callee) (hargs : D.Values s args)
    (h : Moment.Called setting frames callee args m y) : ∃ s', D.Meets s' y := by
  cases h with
  | body hinvokes hlength hinner hamong =>
    obtain ⟨s₁, hm₁, hlater, hf, hreceiver⟩ :=
      Describes.invokes ⟨by exact hm.store, hm.fine⟩ hcallee hinvokes
    have hvalues := List.forall_mem_append.2 ⟨hreceiver, Values.mono hlater hargs⟩
    obtain ⟨s₂, hm₂, -, hruns⟩ := (Keeps.callScope hf hvalues hlength).of_ok hm₁ hinner
    exact among hsetting ⟨by exact hm₂.store, hm₂.fine⟩ (runsAll_children hruns) hamong

theorem loaded {name : String} (hm : D.Describes s m)
    (h : Moment.Loaded setting frames name m y) : ∃ s', D.Meets s' y := by
  cases h with
  | @body frames _ _ _ found registry program _ _ hfound _ hprogram hroot hamong =>
    obtain ⟨s', hnew, -, hhosts⟩ := Keeps.rootScope.of_ok ⟨by exact hm.store, hm.fine⟩ hroot
    have hruns := hhosts.runs _ program (hsetting name found hfound) hprogram
    exact among hsetting ⟨by exact hnew.store, hnew.fine⟩ hruns hamong

end Describes

/-- From moment to moment the code may run where it does. One case for each way to turn to code. -/
theorem Meets.turns {x : Moment} (h : D.Meets s x) (hturns : x.Turns setting y) :
    ∃ s', D.Meets s' y := by
  obtain ⟨hm, hruns⟩ := h
  cases hturns with
  | part _ hamong => exact hm.among hsetting (runsAll_children hruns) hamong
  | block hinner hamong =>
    obtain ⟨s', hm', -, -, hkeeps⟩ := (Keeps.innerScope (D.open_of_runs hruns)).of_ok hm hinner
    exact hm'.among hsetting (runsAll_children (hkeeps _ hruns)) hamong
  | @call frames scope _ callee args _ _ _ _ _ _ hf hvs hcalled =>
    have hosts := withFrames_keeps hsetting frames
    obtain ⟨hcallee, hargs⟩ := List.forall_mem_cons.1 (runsAll_children hruns)
    obtain ⟨s₁, hm₁, h₁, hvalue⟩ := (evalExpr_keeps hosts callee hcallee).of_ok hm hf
    obtain ⟨s₂, hm₂, h₂, hvalues⟩ :=
      (evalArgs_keeps hosts args (RunsAll.mono h₁ hargs)).of_ok hm₁ hvs
    exact hm₂.called hsetting (Value.mono h₂ hvalue) hvalues hcalled
  | @load frames scope span before after path _ _ _ _ hbefore hloaded =>
    have hosts := withFrames_keeps hsetting frames
    obtain ⟨s', hm', -, -⟩ := (loadModules_keeps hosts hruns (List.subset_append_left _ _)
      value_nil).of_ok hm hbefore
    exact hm'.loaded hsetting hloaded

/-- At every moment of a request the code may run where it does. -/
theorem Knows.visits {x : Dialogue} (h : D.Knows s x) {request : Request}
    (hadmits : D.Admits s request) (hvisits : request.Visits setting x.machine y) :
    ∃ s', D.Meets s' y := by
  obtain ⟨z, hbegins, hreaches⟩ := hvisits
  have hm : D.Describes s x.machine := ⟨h.store, h.fine⟩
  have hfirst : ∃ s', D.Meets s' z := by
    cases hbegins with
    | evaluate hprogram hamong =>
      exact Describes.among hsetting ⟨by exact hm.store, hm.fine⟩
        (hadmits.2.runs _ _ hadmits.1 hprogram) hamong
    | run hamong => exact Describes.among hsetting ⟨by exact hm.store, hm.fine⟩ hadmits hamong
    | call hcalled => exact hm.called hsetting hadmits.1 hadmits.2 hcalled
    | load hloaded => exact hm.loaded hsetting hloaded
  induction hreaches with
  | refl => exact hfirst
  | tail _ hturns ih =>
    obtain ⟨s', hmeets⟩ := ih
    exact hmeets.turns hsetting hturns

end Discipline

end ScriptLang
