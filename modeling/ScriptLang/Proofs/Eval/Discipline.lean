import ScriptLang.Proofs.Eval.Run
import ScriptLang.Proofs.Machine.Contents
import ScriptLang.Proofs.Syntax.Nodes

/-!
# What code may do to the store

Code reaches the store through scopes, functions and objects only: it binds names in the scope that it
runs in, rebinds them further out, sets fields of the objects that it holds, and makes scopes of its own
to run blocks, bodies and modules in. A discipline says which scopes, functions and objects those may
be, which code may run in a scope, and how the store may change. What one step obeys, every computation
obeys that is made of such steps, as long as the values that it is given and those in the store are
admitted too.

What is admitted may depend on the store and on how it came about: a discipline keeps states, which know
the store and perhaps more. What is admitted stays admitted as the state changes.

## Main definitions

* `World`: what is known of a store, and how it may change
* `Node.Binds`: what a statement may bind in the scope that it runs in
* `Discipline`: which functions, objects and scopes are admitted as well, and what code runs where
* `Discipline.Value`: the values made of what is admitted
* `Discipline.Fine`: an admitted state whose store holds admitted values only
* `Discipline.Keeps`: a computation obeys the discipline, and gives back what is admitted

## Main results

* `Discipline.Keeps.bind`: one computation after the other
* `Discipline.Keeps.load`: loads
-/

namespace ScriptLang

/-- What is known of a store, when it is admitted, and how it may change. -/
structure World where
  State : Type
  store : State → Store
  Shape : State → Prop
  /-- A state may become another one. -/
  Later : State → State → Prop
  refl (s : State) : Later s s
  trans {s s' s'' : State} : Later s s' → Later s' s'' → Later s s''

/-- The state may become one with the store, of which something holds. -/
def World.Next (W : World) (s : W.State) (t : Store) (P : W.State → Prop) : Prop :=
  ∃ s', W.store s' = t ∧ W.Shape s' ∧ W.Later s s' ∧ P s'

/-- The statement binds the name to the value in the scope that it runs in. -/
inductive Node.Binds : Node → String → Value → Prop where
  | define {d : Definition} {v : Value} : Binds (.stmt (.define d)) d.name.name v
  | declareClass {name : Ident} {methods : List Definition} {span : Span} {v : Value} :
    Binds (.stmt (.declareClass name methods span)) name.name v
  | load {paths : List ModulePath} {span : Span} {path : ModulePath} {ref : ModuleRef} :
    path ∈ paths → Binds (.stmt (.load paths span)) (bareName path.path) (.module ref)

/-- Which functions and objects values are made of, and which code may run in which scopes. -/
structure Discipline extends World where
  /-- The unit may be evaluated. -/
  Source : SourceUnit → Prop
  Closure : State → ScriptLang.Closure → Prop
  /-- The object may have its fields where it has them. -/
  Fields : State → Instance → Prop
  /-- Code may run in the scope, -/
  Open : State → ScopeId → Prop
  /-- and this code may. -/
  Runs : State → ScopeId → Node → Prop
  closure_mono {s s' : State} {f : ScriptLang.Closure} : Later s s' → Closure s f → Closure s' f
  fields_mono {s s' : State} {i : Instance} : Later s s' → Fields s i → Fields s' i
  open_mono {s s' : State} {id : ScopeId} : Later s s' → Open s id → Open s' id
  runs_mono {s s' : State} {id : ScopeId} {x : Node} : Later s s' → Runs s id x → Runs s' id x
  open_of_runs {s : State} {id : ScopeId} {x : Node} : Runs s id x → Open s id
  /-- What stands in the code may run as well. -/
  runs_child {s : State} {id : ScopeId} {x y : Node} : Runs s id x → y ∈ x.children → Runs s id y
  /-- A function is made in the scope that the code runs in, with a number of its own. -/
  closure {s : State} {f : ScriptLang.Closure} : Shape s → Runs s f.scope (.function f.function) →
    f.id = (store s).objects → toWorld.Next s (store s).newObject.2 fun s' => Closure s' f
  define {s : State} {id : ScopeId} {x : Node} {name : String} {v : ScriptLang.Value} : Shape s →
    Runs s id x → x.Binds name v → toWorld.Next s ((store s).define id name v) fun _ => True
  assign {s : State} {id : ScopeId} {span : Span} {target : Ident} {value : Expr}
    (v : ScriptLang.Value) : Shape s → Runs s id (.expr (.assignName span target value)) →
    toWorld.Next s ((store s).assign id target.name v) fun _ => True
  field {s : State} {id : ScopeId} {span : Span} {object value : Expr} {member : Ident} {i : Instance}
    (v : ScriptLang.Value) : Shape s → Runs s id (.expr (.assignMember span object member value)) →
    Fields s i → toWorld.Next s ((store s).define i.fields member.name v) fun _ => True
  /-- The scope of a block, inside the one that code runs in. -/
  inner {s : State} {id : ScopeId} : Shape s → Open s id →
    let next := (store s).newScope (some id) Table.empty
    toWorld.Next s next.2 fun s' => Open s' next.1 ∧ ∀ x, Runs s id x → Runs s' next.1 x
  /-- The scope of a call, inside the one that the function was made in. -/
  call {s : State} {f : ScriptLang.Closure} (args : List ScriptLang.Value) : Shape s →
    Closure s f → args.length = f.arity →
    let next := (store s).newScope (some f.scope) (bindParams f.function.params args)
    toWorld.Next s next.2 fun s' => Runs s' next.1 (.block f.function.body)
  /-- The scope of a module, or of units to come. -/
  root {s : State} : Shape s →
    let next := (store s).newScope none Table.empty
    toWorld.Next s next.2 fun s' => Open s' next.1 ∧ ∀ source program, Source source →
      Program.parse source = .ok program → ∀ stmt ∈ program.stmts, Runs s' next.1 (.stmt stmt)
  /-- The fields of a new object of a class. -/
  fields {s : State} (c : Class) : Shape s →
    let next := (store s).newScope none Table.empty
    toWorld.Next s next.2 fun s' => Fields s' ⟨c, next.1⟩
  newObject {s : State} : Shape s → toWorld.Next s (store s).newObject.2 fun _ => True
  addModule {s : State} (module : Module) : Shape s →
    toWorld.Next s ((store s).addModule module).2 fun _ => True

namespace Discipline

variable (D : Discipline)

/-- The object has admitted methods and admitted fields. -/
structure Object (s : D.State) (i : Instance) : Prop where
  methods : i.ofClass.All (D.Closure s)
  fields : D.Fields s i

/-- The value is made of admitted functions and objects. -/
def Value (s : D.State) : ScriptLang.Value → Prop
  | .function f => D.Closure s f
  | .method m => D.Closure s m.method ∧ D.Object s m.receiver
  | .ofClass c => c.All (D.Closure s)
  | .object i => D.Object s i
  | .int _ | .float _ | .string _ | .bool _ | .nil | .builtin _ | .module _ => True

def Values (s : D.State) (vs : List ScriptLang.Value) : Prop := ∀ v ∈ vs, D.Value s v

/-- All this code may run in the scope. -/
def RunsAll (s : D.State) (id : ScopeId) (xs : List Node) : Prop := ∀ x ∈ xs, D.Runs s id x

/-- Any unit that may be evaluated may run in the scope. -/
structure Hosts (s : D.State) (id : ScopeId) : Prop where
  isOpen : D.Open s id
  runs (source : SourceUnit) (program : Program) : D.Source source →
    Program.parse source = .ok program → D.RunsAll s id (program.stmts.map .stmt)

/-- The modules that are found may be evaluated. -/
def Finds (setting : Setting) : Prop :=
  ∀ name found, setting.resolve name = .ok found → D.Source ⟨found.key, found.text⟩

/-- Nothing is asked of the result. -/
def Any {α : Type} (_ : D.State) (_ : α) : Prop := True

/-- The state is admitted, and so are the values in its store. -/
structure Fine (s : D.State) : Prop where
  shape : D.Shape s
  holds : (D.store s).Holds (D.Value s)

/-- The computation has ended in a state that is admitted and that the one before may become, and what
was given back is admitted too. -/
inductive Ends {α : Type} (s : D.State) (value : D.State → α → Prop) :
    EStateM.Result Diagnostic Machine α → Prop where
  | ok {a : α} {m : Machine} (s' : D.State) : D.store s' = m.store → D.Later s s' → D.Fine s' →
    value s' a → Ends s value (.ok a m)
  | error {d : Diagnostic} {m : Machine} (s' : D.State) : D.store s' = m.store → D.Later s s' →
    D.Fine s' → Ends s value (.error d m)

/-- From an admitted state the computation obeys the discipline. -/
def Keeps {α : Type} (s : D.State) (e : Eval α) (value : D.State → α → Prop) : Prop :=
  ∀ m : Machine, D.store s = m.store → D.Fine s → D.Ends s value (e m)

variable {D}

theorem value_of_isData {s : D.State} {v : ScriptLang.Value} (h : v.isData = true) :
    D.Value s v := by
  cases v with
  | function | method | ofClass | object => cases h
  | _ => trivial

section Mono

variable {s s' : D.State} (hs : D.Later s s')
include hs

theorem Object.mono {i : Instance} (h : D.Object s i) : D.Object s' i where
  methods := Class.All.mono (fun _ => D.closure_mono hs) h.methods
  fields := D.fields_mono hs h.fields

theorem Value.mono {v : ScriptLang.Value} (h : D.Value s v) : D.Value s' v := by
  cases v with
  | function f => exact D.closure_mono hs h
  | method m => exact ⟨D.closure_mono hs h.1, h.2.mono hs⟩
  | ofClass c => exact Class.All.mono (fun _ => D.closure_mono hs) h
  | object i => exact Object.mono hs h
  | _ => trivial

theorem Values.mono {vs : List ScriptLang.Value} (h : D.Values s vs) : D.Values s' vs :=
  fun v hv => (h v hv).mono hs

theorem RunsAll.mono {id : ScopeId} {xs : List Node} (h : D.RunsAll s id xs) : D.RunsAll s' id xs :=
  fun x hx => D.runs_mono hs (h x hx)

theorem Hosts.mono {id : ScopeId} (h : D.Hosts s id) : D.Hosts s' id where
  isOpen := D.open_mono hs h.isOpen
  runs source program hsource hprogram := (h.runs source program hsource hprogram).mono hs

end Mono

theorem runsAll_children {s : D.State} {id : ScopeId} {x : Node} (h : D.Runs s id x) :
    D.RunsAll s id x.children := fun _ => D.runs_child h

/-- The values of a store that has changed are admitted if the change brings in admitted ones only. -/
theorem Fine.next {s : D.State} {t : Store} {P : D.State → Prop} (h : D.Fine s)
    (hnext : D.Next s t P)
    (hholds : ∀ s', D.Later s s' → (D.store s).Holds (D.Value s') → t.Holds (D.Value s')) :
    ∃ s', D.store s' = t ∧ D.Later s s' ∧ D.Fine s' ∧ P s' := by
  obtain ⟨s', rfl, hshape, hlater, hP⟩ := hnext
  exact ⟨s', rfl, hlater, ⟨hshape, hholds s' hlater (h.holds.mono fun _ => Value.mono hlater)⟩, hP⟩

/-- Wherever the computation ends, there is an admitted state of the machine. -/
theorem Ends.after {α : Type} {s : D.State} {value : D.State → α → Prop} {e : Eval α} {m : Machine}
    (h : D.Ends s value (e m)) : ∃ s', D.store s' = (e.after m).store ∧ D.Later s s' ∧ D.Fine s' := by
  rw [Eval.after]
  generalize e m = result at h ⊢
  cases h with
  | ok s' hstore hlater hfine _ => exact ⟨s', hstore, hlater, hfine⟩
  | error s' hstore hlater hfine => exact ⟨s', hstore, hlater, hfine⟩

namespace Keeps

variable {α β : Type} {s : D.State} {e : Eval α} {value : D.State → α → Prop}
  {follow : D.State → β → Prop}

theorem pure {a : α} (h : value s a) : D.Keeps s (Pure.pure a : Eval α) value :=
  fun _ hm hfine => .ok s hm (D.refl s) hfine h

theorem throw {d : Diagnostic} : D.Keeps s (MonadExcept.throw d : Eval α) value :=
  fun _ hm hfine => .error s hm (D.refl s) hfine

/-- One computation after the other. -/
theorem bind {k : α → Eval β} (h : D.Keeps s e value)
    (hk : ∀ a s', D.Later s s' → value s' a → D.Keeps s' (k a) follow) :
    D.Keeps s (e >>= k) follow := by
  intro m hm hfine
  have hfirst := h m hm hfine
  rw [Eval.bind_eq]
  generalize e m = result at hfirst ⊢
  cases hfirst with
  | error s' hm' hlater hfine' => exact .error s' hm' hlater hfine'
  | @ok a m' s' hm' hlater hfine' ha =>
    -- The second computation begins in the state that the first one has left.
    have hsecond := hk a s' hlater ha m' hm' hfine'
    dsimp only
    generalize k a m' = result' at hsecond ⊢
    cases hsecond with
    | ok s'' hm'' hlater' hfine'' hb => exact .ok s'' hm'' (D.trans hlater hlater') hfine'' hb
    | error s'' hm'' hlater' hfine'' => exact .error s'' hm'' (D.trans hlater hlater') hfine''

/-! ### Steps on the store -/

theorem readStore {f : Store → α} (h : D.Fine s → value s (f (D.store s))) :
    D.Keeps s (Eval.readStore f) value := by
  intro m hm hfine
  have ha := h hfine
  rw [hm] at ha
  exact .ok s hm (D.refl s) hfine ha

theorem withStore {f : Store → α × Store}
    (h : D.Fine s → ∃ s', D.store s' = (f (D.store s)).2 ∧ D.Later s s' ∧ D.Fine s' ∧
      value s' (f (D.store s)).1) :
    D.Keeps s (Eval.withStore f) value := by
  intro m hm hfine
  obtain ⟨s', hstore, hlater, hfine', ha⟩ := h hfine
  rw [hm] at hstore ha
  exact .ok s' hstore hlater hfine' ha

theorem modifyStore {f : Store → Store}
    (h : D.Fine s → ∃ s', D.store s' = f (D.store s) ∧ D.Later s s' ∧ D.Fine s' ∧ True) :
    D.Keeps s (Eval.modifyStore f) D.Any := by
  intro m hm hfine
  obtain ⟨s', hstore, hlater, hfine', -⟩ := h hfine
  rw [hm] at hstore
  exact .ok s' hstore hlater hfine' trivial

theorem print (line : String) : D.Keeps s (Eval.print line) D.Any :=
  fun _ hm hfine => .ok s hm (D.refl s) hfine trivial

theorem define {id : ScopeId} {x : Node} {name : String} {v : ScriptLang.Value}
    (hruns : D.Runs s id x) (hbinds : x.Binds name v) (hv : D.Value s v) :
    D.Keeps s (Eval.modifyStore (·.define id name v)) D.Any :=
  modifyStore fun h =>
    h.next (D.define h.shape hruns hbinds) fun _ hlater hs => hs.define (hv.mono hlater)

theorem assign {id : ScopeId} {span : Span} {target : Ident} {value : Expr} {v : ScriptLang.Value}
    (hruns : D.Runs s id (.expr (.assignName span target value))) (hv : D.Value s v) :
    D.Keeps s (Eval.modifyStore (·.assign id target.name v)) D.Any :=
  modifyStore fun h =>
    h.next (D.assign v h.shape hruns) fun _ hlater hs => hs.assign (hv.mono hlater)

theorem writeField {id : ScopeId} {span : Span} {object value : Expr} {member : Ident} {i : Instance}
    {v : ScriptLang.Value} (hruns : D.Runs s id (.expr (.assignMember span object member value)))
    (hfields : D.Fields s i) (hv : D.Value s v) :
    D.Keeps s (Eval.modifyStore (·.define i.fields member.name v)) D.Any :=
  modifyStore fun h =>
    h.next (D.field v h.shape hruns hfields) fun _ hlater hs => hs.define (hv.mono hlater)

theorem innerScope {id : ScopeId} (hopen : D.Open s id) :
    D.Keeps s (innerScope id) fun s' inner =>
      D.Open s' inner ∧ ∀ x, D.Runs s id x → D.Runs s' inner x :=
  withStore fun h => h.next (D.inner h.shape hopen) fun _ _ hs => hs.newScope .empty

theorem callScope {f : ScriptLang.Closure} {args : List ScriptLang.Value} (hf : D.Closure s f)
    (hargs : D.Values s args) (hlength : args.length = f.arity) :
    D.Keeps s (Eval.withStore (·.newScope (some f.scope) (bindParams f.function.params args)))
      fun s' inner => D.Runs s' inner (.block f.function.body) :=
  withStore fun h => h.next (D.call args h.shape hf hlength) fun _ hlater hs =>
    hs.newScope (.bindParams fun v hv => (hargs v hv).mono hlater)

theorem rootScope : D.Keeps s (Eval.withStore (·.newScope none Table.empty)) D.Hosts := by
  refine withStore fun h => h.next ?_ fun _ _ hs => hs.newScope .empty
  obtain ⟨s', hstore, hshape, hlater, hopen, hruns⟩ := D.root h.shape
  exact ⟨s', hstore, hshape, hlater, hopen, fun source program hsource hprogram =>
    List.forall_mem_map.2 (hruns source program hsource hprogram)⟩

theorem fieldScope (c : Class) : D.Keeps s (Eval.withStore (·.newScope none Table.empty))
    fun s fields => D.Fields s ⟨c, fields⟩ :=
  withStore fun h => h.next (D.fields c h.shape) fun _ _ hs => hs.newScope .empty

theorem newObject : D.Keeps s (Eval.withStore Store.newObject) D.Any :=
  withStore fun h => h.next (D.newObject h.shape) fun _ _ hs => hs.newObject

/-- A function is made in the scope that the code runs in. -/
theorem newClosure {scope : ScopeId} {name? : Option String} {function : Lambda}
    (hruns : D.Runs s scope (.function function)) :
    D.Keeps s (newClosure scope name? function) D.Closure := by
  intro m hm hfine
  let f : ScriptLang.Closure := ⟨m.store.objects, name?, function, scope, m.unit⟩
  have hid : f.id = (D.store s).objects := by rw [hm]
  obtain ⟨s', hstore, hlater, hfine', hf⟩ :=
    hfine.next (D.closure hfine.shape (f := f) hruns hid) fun _ _ hs => hs.newObject
  rw [hm] at hstore
  exact .ok s' hstore hlater hfine' hf

/-! ### Faults, units and frames -/

theorem failAt {fault : Fault} {span : Span} :
    D.Keeps s (Eval.failAt fault span : Eval α) value := throw

theorem ofExcept {result : Except Fault α} {good : α → Prop} {kinds : DiagnosticKind → Prop}
    (h : Outcome good kinds result) (hvalue : ∀ a, good a → value s a) :
    D.Keeps s (Eval.ofExcept result) value := by
  cases h with
  | ok ha => exact pure (hvalue _ ha)
  | error => exact throw

theorem ofExceptAt {result : Except Fault α} {good : α → Prop} {kinds : DiagnosticKind → Prop}
    {span : Span} (h : Outcome good kinds result) (hvalue : ∀ a, good a → value s a) :
    D.Keeps s (Eval.ofExceptAt span result) value := by
  cases h with
  | ok ha => exact pure (hvalue _ ha)
  | error => exact throw

theorem mapDiagnostic {f : Diagnostic → Diagnostic} (h : D.Keeps s e value) :
    D.Keeps s (Eval.mapDiagnostic f e) value := by
  intro m hm hfine
  have hrun := h m hm hfine
  rw [Eval.mapDiagnostic]
  generalize e m = result at hrun ⊢
  cases hrun with
  | ok s' hm' hlater hfine' ha => exact .ok s' hm' hlater hfine' ha
  | error s' hm' hlater hfine' => exact .error s' hm' hlater hfine'

theorem inUnit {unit : String} (h : D.Keeps s e value) : D.Keeps s (Eval.inUnit unit e) value := by
  intro m hm hfine
  have hrun := h { m with unit := unit } hm hfine
  rw [Eval.inUnit]
  generalize e { m with unit := unit } = result at hrun ⊢
  cases hrun with
  | ok s' hm' hlater hfine' ha => exact .ok s' hm' hlater hfine' ha
  | error s' hm' hlater hfine' => exact .error s' hm' hlater hfine'

theorem inFrame (h : D.Keeps s e value) : D.Keeps s (Eval.inFrame e) value := by
  intro m hm hfine
  have hrun := h { m with depth := m.depth + 1 } hm hfine
  rw [Eval.inFrame]
  generalize e { m with depth := m.depth + 1 } = result at hrun ⊢
  cases hrun with
  | ok s' hm' hlater hfine' ha => exact .ok s' hm' hlater hfine' ha
  | error s' hm' hlater hfine' => exact .error s' hm' hlater hfine'

/-- A load changes the store by what the evaluation of the module does, and keeps the module. -/
theorem load {resolve : Resolver} {name : String} {evaluate : SourceUnit → Eval Module}
    (h : ∀ found, resolve name = .ok found → D.Keeps s (evaluate ⟨found.key, found.text⟩)
      fun s module => module.members.All (D.Value s)) :
    D.Keeps s (loadModule resolve name evaluate) D.Any := by
  intro m hm hfine
  have hrun := loadModule_run resolve name evaluate m
  generalize loadModule resolve name evaluate m = result at hrun ⊢
  cases hrun with
  | notFound => exact .error s hm (D.refl s) hfine
  | refused => exact .error s hm (D.refl s) hfine
  | reused => exact .ok s hm (D.refl s) hfine trivial
  | @aborted found registry d m' hfound _ hfail =>
    have hinside := h found hfound (m.beginLoad found registry) hm hfine
    rw [hfail] at hinside
    cases hinside with
    | error s' hm' hlater hfine' => exact .error s' hm' hlater hfine'
  | @completed found registry module m' hfound _ hdone =>
    have hinside := h found hfound (m.beginLoad found registry) hm hfine
    rw [hdone] at hinside
    cases hinside with
    | ok s' hm' hlater hfine' hmodule =>
      obtain ⟨s'', hstore, hlater', hfine'', -⟩ :=
        hfine'.next (D.addModule module hfine'.shape) fun _ hlater' hs =>
          hs.addModule fun name v hv => (hmodule name v hv).mono hlater'
      rw [hm'] at hstore
      exact .ok s'' hstore (D.trans hlater hlater') hfine'' trivial

end Keeps

end Discipline

end ScriptLang
