import ScriptLang.Proofs.Eval.Congruence

/-!
# What a single run does to the machine

A relation between the machines before and after a step holds between the machines before and after
a whole run, if it is reflexive and transitive and the steps of the evaluator obey it. Only calls
and loads change more of the machine than the store and the output, so only they need an argument of
their own for each relation.

## Main definitions

* `Eval.after`: the machine that a computation leaves
* `LoadRun`: the ways in which a load can go
* `evaluateWithin`: the evaluation that a load asks for
* `StepClosed`, `RunClosed`: a relation between machines that the elementary steps obey, and one
  that calls and loads obey as well

## Main results

* `Host.call_succ`: a call and its frame
* `StepClosed.congruence`: such a relation holds of whole runs
* `loadModule_run`: every load goes in one of the ways
* `RunClosed.hosts`: what calls and loads obey holds across those of every host
-/

namespace ScriptLang

/-- The machine that a computation leaves, however it ends. -/
def Eval.after {α : Type} (e : Eval α) (m : Machine) : Machine :=
  match e m with
  | .ok _ m' => m'
  | .error _ m' => m'

namespace Eval

variable {α β : Type}

theorem after_of_ok {e : Eval α} {m m' : Machine} {a : α} (h : e m = .ok a m') :
    e.after m = m' := by
  rw [after, h]

theorem after_of_error {e : Eval α} {m m' : Machine} {d : Diagnostic} (h : e m = .error d m') :
    e.after m = m' := by
  rw [after, h]

/-- What holds of a computation holds of its machine where it gives something back. -/
theorem rel_of_ok {S : Machine → Machine → Prop} {e : Eval α} {m m' : Machine} {a : α}
    (h : ∀ m, S m (e.after m)) (hrun : e m = .ok a m') : S m m' :=
  after_of_ok hrun ▸ h m

theorem bind_eq (e : Eval α) (k : α → Eval β) (m : Machine) :
    (e >>= k) m =
      match e m with
      | .ok a m' => k a m'
      | .error d m' => .error d m' := by
  change EStateM.bind e k m = _
  rw [EStateM.bind]
  cases e m with
  | ok a m' => rfl
  | error d m' => rfl

theorem exists_of_bind_ok {e : Eval α} {k : α → Eval β} {m m' : Machine} {b : β}
    (h : (e >>= k) m = .ok b m') : ∃ a m₁, e m = .ok a m₁ ∧ k a m₁ = .ok b m' := by
  rw [bind_eq] at h
  cases hrun : e m with
  | ok a m₁ =>
    rw [hrun] at h
    exact ⟨a, m₁, rfl, h⟩
  | error d m₁ =>
    rw [hrun] at h
    cases h

theorem tryCatch_eq (e : Eval α) (handle : Diagnostic → Eval α) (m : Machine) :
    tryCatch e handle m =
      match e m with
      | .ok a m' => .ok a m'
      | .error d m' => handle d m' := by
  change EStateM.tryCatch e handle m = _
  delta EStateM.tryCatch
  cases e m with
  | ok a m' => rfl
  | error d m' => rfl

theorem after_bind (e : Eval α) (k : α → Eval β) (m : Machine) :
    (e >>= k).after m =
      match e m with
      | .ok a m' => (k a).after m'
      | .error _ m' => m' := by
  rw [after, bind_eq]
  cases e m with
  | ok a m' => rfl
  | error d m' => rfl

theorem after_inUnit (unit : String) (e : Eval α) (m : Machine) :
    (inUnit unit e).after m = { e.after { m with unit := unit } with unit := m.unit } := by
  rw [after, after, inUnit]
  cases e { m with unit := unit } with
  | ok a m' => rfl
  | error d m' => rfl

theorem after_inFrame (e : Eval α) (m : Machine) :
    (inFrame e).after m = { e.after { m with depth := m.depth + 1 } with depth := m.depth } := by
  rw [after, after, inFrame]
  cases e { m with depth := m.depth + 1 } with
  | ok a m' => rfl
  | error d m' => rfl

theorem after_mapDiagnostic (f : Diagnostic → Diagnostic) (e : Eval α) (m : Machine) :
    (mapDiagnostic f e).after m = e.after m := by
  rw [after, after, mapDiagnostic]
  cases e m with
  | ok a m' => rfl
  | error d m' => rfl

theorem after_discard (e : Eval α) (m : Machine) :
    (discard e).after m = e.after m := by
  have hbind : discard e = e >>= fun _ => pure () := rfl
  rw [hbind, after_bind, after]
  cases e m with
  | ok a m' => rfl
  | error d m' => rfl

theorem exists_of_inFrame_ok {e : Eval α} {m m' : Machine} {a : α}
    (h : inFrame e m = .ok a m') : ∃ m₁, e { m with depth := m.depth + 1 } = .ok a m₁ := by
  rw [inFrame] at h
  cases hrun : e { m with depth := m.depth + 1 } with
  | ok b m₁ =>
    rw [hrun] at h
    cases h
    exact ⟨m₁, rfl⟩
  | error d m₁ =>
    rw [hrun] at h
    cases h

end Eval

/-- A name stands for what is bound to it, or else for a built-in. -/
theorem readName_eq (scope : ScopeId) (name : String) (span : Span) (m : Machine) :
    readName scope name span m =
      match m.store.lookup? scope name with
      | some v => .ok v m
      | none =>
        match Builtin.ofName? name with
        | some b => .ok (.builtin b) m
        | none => .error ((Fault.undefined name).at span) m := by
  rw [readName, Eval.bind_eq]
  change (match m.store.lookup? scope name with | some v => _ | none => _ : Eval Value) m = _
  cases m.store.lookup? scope name with
  | some v => rfl
  | none =>
    dsimp only
    cases Builtin.ofName? name with
    | some b => rfl
    | none => rfl

/-- A call takes one of the frames that are left. -/
theorem Host.call_succ (setting : Setting) (frames : Nat) (callee : Value) (args : List Value)
    (span : Span) (m : Machine) :
    (Host.withFrames setting (frames + 1)).call callee args span m =
      match applyValue (Host.withFrames setting frames) callee args span
        { m with depth := m.depth + 1 } with
      | .ok v m' => .ok v { m' with depth := m.depth }
      | .error d m' => .error d { m' with depth := m.depth } := by
  change Eval.inFrame (applyValue (Host.withFrames setting frames) callee args span) m = _
  rw [Eval.inFrame]
  cases applyValue (Host.withFrames setting frames) callee args span
    { m with depth := m.depth + 1 } <;> rfl

/-- A relation between machines that holds across every elementary step. -/
structure StepClosed (S : Machine → Machine → Prop) : Prop where
  refl (m : Machine) : S m m
  trans {m m' m'' : Machine} : S m m' → S m' m'' → S m m''
  store (m : Machine) (s : Store) : s.modules = m.store.modules → S m { m with store := s }
  output (m : Machine) (o : Output) : S m { m with output := o }
  unit {m m' : Machine} (unit : String) :
    S { m with unit := unit } m' → S m { m' with unit := m.unit }

theorem StepClosed.congruence {S : Machine → Machine → Prop} (h : StepClosed S) :
    Congruence fun _ e _ => ∀ m, S m (e.after m) where
  pure _ m := h.refl m
  throw _ m := h.refl m
  bind {α β e e' k k'} he hk m := by
    have hfirst := he m
    -- The second computation runs only where the first one gives a value.
    rw [Eval.after_bind]
    cases hrun : e m with
    | ok a m' =>
      rw [Eval.after_of_ok hrun] at hfirst
      exact h.trans hfirst (hk a m')
    | error d m' =>
      rw [Eval.after_of_error hrun] at hfirst
      exact hfirst
  withSpan span he m := by
    rw [Eval.after_mapDiagnostic]
    exact he m
  inUnit unit he m := by
    rw [Eval.after_inUnit]
    exact h.unit unit (he _)
  readStore _ m := h.refl m
  unitName m := h.refl m
  define _ _ _ m := h.store m _ rfl
  assign id name v m := h.store m _ (m.store.modules_assign id name v)
  newScope _ _ m := h.store m _ rfl
  newObject m := h.store m _ rfl
  print _ m := h.output m _

/-- A load that begins ends with the module or without it, as the evaluation does. -/
theorem followStart_started (found : ResolvedModule) (evaluate : Eval Module) (registry : Registry ModuleRef)
    (m : Machine) :
    followStart found evaluate (.ok (.started registry)) m =
      match evaluate (m.beginLoad found registry) with
      | .error d m' => .error d (m'.abortLoad found.key)
      | .ok module m' =>
        .ok (m'.store.addModule module).1
          ({ m' with store := (m'.store.addModule module).2 }.completeLoad found.key
            (m'.store.addModule module).1) := by
  rw [followStart, Eval.bind_eq]
  -- The load is in progress from here on.
  change (_ >>= _ : Eval ModuleRef) (m.beginLoad found registry) = _
  rw [Eval.bind_eq, Eval.tryCatch_eq]
  cases evaluate (m.beginLoad found registry) with
  | ok module m' => rfl
  | error d m' => rfl

/-- A load asks the resolver, then the registry, and does what the registry says. -/
theorem loadModule_eq (resolve : Resolver) (name : String) (evaluate : SourceUnit → Eval Module)
    (m : Machine) :
    loadModule resolve name evaluate m =
      match resolve name with
      | .error d => .error d m
      | .ok found =>
        followStart found (evaluate ⟨found.key, found.text⟩)
          (m.registry.start? found.key (bareName name)) m := by
  rw [loadModule]
  cases resolve name with
  | error d => rfl
  | ok found => rfl

/-- The ways in which a load can go. -/
inductive LoadRun (resolve : Resolver) (name : String) (evaluate : SourceUnit → Eval Module)
    (m : Machine) : EStateM.Result Diagnostic Machine ModuleRef → Prop where
  /-- There is no such module. -/
  | notFound {d : Diagnostic} : resolve name = .error d →
    LoadRun resolve name evaluate m (.error d m)
  /-- The module is being loaded. -/
  | refused {found : ResolvedModule} {fault : Fault} : resolve name = .ok found →
    m.registry.start? found.key (bareName name) = .error fault →
    LoadRun resolve name evaluate m (.error fault.report (m.record (.refused found.key)))
  /-- The module has been loaded. -/
  | reused {found : ResolvedModule} {ref : ModuleRef} : resolve name = .ok found →
    m.registry.start? found.key (bareName name) = .ok (.cached ref) →
    LoadRun resolve name evaluate m (.ok ref (m.record (.reused found.key ref)))
  /-- The module is evaluated, which fails. -/
  | aborted {found : ResolvedModule} {registry : Registry ModuleRef} {d : Diagnostic}
    {m' : Machine} : resolve name = .ok found →
    m.registry.start? found.key (bareName name) = .ok (.started registry) →
    evaluate ⟨found.key, found.text⟩ (m.beginLoad found registry) = .error d m' →
    LoadRun resolve name evaluate m (.error d (m'.abortLoad found.key))
  /-- The module is evaluated, which succeeds. -/
  | completed {found : ResolvedModule} {registry : Registry ModuleRef} {module : Module}
    {m' : Machine} : resolve name = .ok found →
    m.registry.start? found.key (bareName name) = .ok (.started registry) →
    evaluate ⟨found.key, found.text⟩ (m.beginLoad found registry) = .ok module m' →
    LoadRun resolve name evaluate m
      (.ok (m'.store.addModule module).1
        ({ m' with store := (m'.store.addModule module).2 }.completeLoad found.key
          (m'.store.addModule module).1))

theorem loadModule_run (resolve : Resolver) (name : String) (evaluate : SourceUnit → Eval Module)
    (m : Machine) : LoadRun resolve name evaluate m (loadModule resolve name evaluate m) := by
  rw [loadModule_eq]
  cases hresolve : resolve name with
  | error d => exact .notFound hresolve
  | ok found =>
    dsimp only
    cases hstart : m.registry.start? found.key (bareName name) with
    | error fault => exact .refused hresolve hstart
    | ok start =>
      cases start with
      | cached ref => exact .reused hresolve hstart
      | started registry =>
        rw [followStart_started]
        cases hrun : evaluate ⟨found.key, found.text⟩ (m.beginLoad found registry) with
        | error d m' => exact .aborted hresolve hstart hrun
        | ok module m' => exact .completed hresolve hstart hrun

/-- The evaluation of a unit as a module, with a number of frames left. -/
def evaluateWithin (setting : Setting) : Nat → String → SourceUnit → Eval Module
  | 0, _, _ => Eval.fail (.tooManyFrames setting.maxFrames)
  | frames + 1, name, source =>
    Eval.inFrame (evalModule (Host.withFrames setting frames) (bareName name) source)

theorem loadWithin_eq (setting : Setting) (frames : Nat) (name : String) :
    loadWithin setting frames name =
      loadModule setting.resolve name (evaluateWithin setting frames name) := by
  cases frames <;> rfl

/-- A relation between machines that holds across every step, those of calls and loads included. -/
structure RunClosed (S : Machine → Machine → Prop) : Prop extends StepClosed S where
  frame {m m' : Machine} : S { m with depth := m.depth + 1 } m' → S m { m' with depth := m.depth }
  load (resolve : Resolver) (name : String) (evaluate : SourceUnit → Eval Module) :
    (∀ source m, S m ((evaluate source).after m)) →
      ∀ m, S m ((loadModule resolve name evaluate).after m)

/-- The relation holds across the calls and loads of every host. -/
theorem RunClosed.hosts {S : Machine → Machine → Prop} (h : RunClosed S) (setting : Setting)
    (frames : Nat) :
    Congruence.Hosts (fun _ e _ => ∀ m, S m (e.after m)) (Host.withFrames setting frames)
      (Host.withFrames setting frames) := by
  have congruence := h.toStepClosed.congruence
  -- A frame runs code on a host with one frame less, so the induction is on the frames left.
  induction frames with
  | zero =>
    constructor
    · intro callee args span m
      exact h.refl m
    · intro name m
      change S m ((loadWithin setting 0 name).after m)
      rw [loadWithin_eq]
      refine h.load _ _ _ (fun _ m => ?_) m
      exact h.refl m
  | succ frames ih =>
    constructor
    · intro callee args span m
      change S m ((Eval.inFrame _).after m)
      rw [Eval.after_inFrame]
      exact h.frame (congruence.applyValue ih callee args span _)
    · intro name m
      change S m ((loadWithin setting (frames + 1) name).after m)
      rw [loadWithin_eq]
      refine h.load _ _ _ (fun source m => ?_) m
      rw [evaluateWithin, Eval.after_inFrame]
      exact h.frame (congruence.evalModule ih (bareName name) source _)

/-- The relation holds across the evaluation of a module. -/
theorem RunClosed.evaluateWithin {S : Machine → Machine → Prop} (h : RunClosed S) (setting : Setting)
    (frames : Nat) (name : String) (source : SourceUnit) (m : Machine) :
    S m ((evaluateWithin setting frames name source).after m) := by
  cases frames with
  | zero => exact h.refl m
  | succ frames =>
    rw [ScriptLang.evaluateWithin, Eval.after_inFrame]
    exact h.frame (h.toStepClosed.congruence.evalModule (h.hosts setting frames) _ source _)

end ScriptLang
