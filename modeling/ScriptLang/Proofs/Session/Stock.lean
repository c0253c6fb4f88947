import ScriptLang.Proofs.Module.Registry
import ScriptLang.Proofs.Session.Moments

/-!
# The stock of modules

The modules of a session come from loads, and each is what the evaluation of its unit left: the members
are what the scope of the unit binds when the evaluation ends. A module that is in the store stays there
as it is, whatever code runs and however it ends.

At a moment in the middle of a request loads may be in progress, so the machine does not stand where it
stood before. But what it has in stock it has in all that comes.

## Main definitions

* `Module.Made`, `Module.IsMade`: the evaluation of a unit, or of some unit, has made the module
* `Machine.Stocked`: all modules in the store have been made, and the registry finds them by their keys
* `Machine.Extends`: a later machine has all modules of an earlier one
* `Machine.Occurs`: the machines of all sessions, between two requests and at the moments of each

## Main results

* `Module.made_of_evalModule`: what the evaluation of a unit gives back it has made
* `Machine.Extends.hosts`: calls and loads keep what is in stock
* `Machine.Occurs.stocked`: every machine that occurs is stocked
-/

namespace ScriptLang

/-- The evaluation of a unit from the machine on has made the module: the program of the unit runs to its
end in a new scope, and the members are what that scope binds then. -/
inductive Module.Made (host : Host) (source : SourceUnit) (m : Machine) (module : Module) : Prop where
  | intro {program : Program} {v : Value} {m' : Machine} :
    Program.parse source = .ok program →
    runProgram host program (m.store.newScope none Table.empty).1 source.name
      { m with store := (m.store.newScope none Table.empty).2 } = .ok v m' →
    module.key = source.name →
    module.members = m'.store.bindings (m.store.newScope none Table.empty).1 →
    Made host source m module

theorem Module.Made.key_eq {host : Host} {source : SourceUnit} {m : Machine} {module : Module}
    (h : module.Made host source m) : module.key = source.name := by
  cases h with
  | intro _ _ hkey _ => exact hkey

/-- The evaluation of a unit that was found by some name has made the module. -/
def Module.IsMade (module : Module) : Prop :=
  ∃ setting frames name found m, setting.resolve name = .ok found ∧
    module.Made (Host.withFrames setting frames) ⟨found.key, found.text⟩ m

theorem Module.made_of_evalModule {host : Host} {name : String} {source : SourceUnit} {m m' : Machine}
    {module : Module} (h : evalModule host name source m = .ok module m') :
    module.Made host source m := by
  rw [evalModule] at h
  cases hprogram : Program.parse source with
  | error d =>
    rw [hprogram] at h
    cases h
  | ok program =>
    rw [hprogram] at h
    obtain ⟨scope, m₁, hscope, h⟩ := Eval.exists_of_bind_ok h
    cases hscope
    obtain ⟨v, m₂, hrun, h⟩ := Eval.exists_of_bind_ok h
    cases h
    exact .intro hprogram hrun rfl rfl

/-- The evaluation that a load asks for takes a frame. -/
theorem Module.made_of_evaluateWithin {setting : Setting} {frames : Nat} {name : String}
    {source : SourceUnit} {m m' : Machine} {module : Module}
    (h : evaluateWithin setting frames name source m = .ok module m') :
    ∃ inside, frames = inside + 1 ∧
      module.Made (Host.withFrames setting inside) source { m with depth := m.depth + 1 } := by
  cases frames with
  | zero => cases h
  | succ inside =>
    obtain ⟨m₁, hrun⟩ := Eval.exists_of_inFrame_ok h
    exact ⟨inside, rfl, made_of_evalModule hrun⟩

namespace Machine

/-- All modules in the store have been made, and a key that counts as loaded has its module there. -/
structure Stocked (m : Machine) : Prop where
  made {ref : ModuleRef} {module : Module} : m.store.module? ref = some module → module.IsMade
  loaded {key : String} {ref : ModuleRef} : m.registry.get? key = some ref →
    ∃ module, m.store.module? ref = some module ∧ module.key = key

theorem stocked_start (echo : Bool) : (Machine.start echo).Stocked where
  made h := by cases h
  loaded h := by cases h

/-- Only the registry and the modules matter. -/
theorem Stocked.of_eq {m m' : Machine} (h : m.Stocked)
    (registry : ∀ key, m'.registry.get? key = m.registry.get? key)
    (modules : m'.store.modules = m.store.modules) : m'.Stocked := by
  have hmodule (ref : ModuleRef) : m'.store.module? ref = m.store.module? ref := by
    rw [Store.module?, Store.module?, modules]
  constructor
  · intro ref module href
    exact h.made ((hmodule ref).symm.trans href)
  · intro key ref hkey
    obtain ⟨module, href, hname⟩ := h.loaded ((registry key).symm.trans hkey)
    exact ⟨module, (hmodule ref).trans href, hname⟩

/-- A key whose load fails has no module; the others keep theirs. -/
theorem Stocked.abortLoad {m : Machine} (h : m.Stocked) (key : String) : (m.abortLoad key).Stocked where
  made := h.made
  loaded {k ref} hkey := by
    change (m.registry.abort key).get? k = some ref at hkey
    rw [Registry.get?_abort] at hkey
    split at hkey
    · cases hkey
    · exact h.loaded hkey

theorem Stocked.completeLoad {m : Machine} (h : m.Stocked) {module : Module} (hmade : module.IsMade) :
    ({ m with store := (m.store.addModule module).2 }.completeLoad module.key
      (m.store.addModule module).1).Stocked where
  made {ref added} href := by
    change (m.store.modules.push module)[ref.id]? = some added at href
    rw [Array.getElem?_push] at href
    split at href
    · cases href
      exact hmade
    · exact h.made href
  loaded {k ref} hkey := by
    change (m.registry.complete module.key _).get? k = some ref at hkey
    rw [Registry.get?_complete] at hkey
    split at hkey
    · next hk =>
      cases hkey
      exact ⟨module, m.store.module?_addModule module, hk⟩
    · obtain ⟨old, hold, hname⟩ := h.loaded hkey
      exact ⟨old, Store.module?_of_prefix (m.store.prefix_addModule module) hold, hname⟩

/-- The second machine has the modules of the first one, and is stocked if that is. -/
structure Extends (m m' : Machine) : Prop where
  modules : m.store.modules.toList <+: m'.store.modules.toList
  stocked : m.Stocked → m'.Stocked

namespace Extends

variable {m m' m'' : Machine} {setting : Setting} {frames : Nat}

/-- Nothing has happened to the modules. -/
theorem of_eq (registry : ∀ key, m'.registry.get? key = m.registry.get? key)
    (modules : m'.store.modules = m.store.modules) : m.Extends m' where
  modules := modules ▸ List.prefix_rfl
  stocked h := h.of_eq registry modules

theorem refl (m : Machine) : m.Extends m := of_eq (fun _ => rfl) rfl

theorem trans (h : m.Extends m') (h' : m'.Extends m'') : m.Extends m'' where
  modules := h.modules.trans h'.modules
  stocked hm := h'.stocked (h.stocked hm)

/-- The machine turns to another unit. -/
theorem withUnit (m : Machine) (unit : String) : m.Extends { m with unit := unit } :=
  of_eq (fun _ => rfl) rfl

/-- The machine counts other frames. -/
theorem withDepth (m : Machine) (depth : Nat) : m.Extends { m with depth := depth } :=
  of_eq (fun _ => rfl) rfl

theorem beginLoad {found : ResolvedModule} {name : String} {registry : Registry ModuleRef}
    (hstart : m.registry.start? found.key name = .ok (.started registry)) :
    m.Extends (m.beginLoad found registry) :=
  of_eq (Registry.get?_of_started hstart) rfl

theorem stepClosed : StepClosed Machine.Extends where
  refl := refl
  trans := trans
  store _ _ hs := of_eq (fun _ => rfl) hs
  output _ _ := of_eq (fun _ => rfl) rfl
  unit unit h := (withUnit _ unit).trans (h.trans (withUnit _ _))

theorem frame (h : Machine.Extends { m with depth := m.depth + 1 } m') :
    m.Extends { m' with depth := m.depth } :=
  (withDepth m _).trans (h.trans (withDepth m' _))

/-- A load keeps what is in stock, if the evaluation does. -/
theorem load {setting : Setting} {frames : Nat} {name : String}
    (hkeeps : ∀ source m, Machine.Extends m ((evaluateWithin setting frames name source).after m))
    (m : Machine) : m.Extends ((loadWithin setting frames name).after m) := by
  have hrun := loadModule_run setting.resolve name (evaluateWithin setting frames name) m
  rw [Eval.after]
  rw [← loadWithin_eq] at hrun
  generalize loadWithin setting frames name m = result at hrun ⊢
  cases hrun with
  | notFound => exact refl m
  | refused | reused => exact of_eq (fun _ => rfl) rfl
  | @aborted found registry d m' _ hstart hfail =>
    have hinside := hkeeps ⟨found.key, found.text⟩ (m.beginLoad found registry)
    rw [Eval.after_of_error hfail] at hinside
    exact ⟨hinside.modules, fun hm => (((beginLoad hstart).trans hinside).stocked hm).abortLoad found.key⟩
  | @completed found registry module m' hresolve hstart hdone =>
    have hinside := hkeeps ⟨found.key, found.text⟩ (m.beginLoad found registry)
    rw [Eval.after_of_ok hdone] at hinside
    obtain ⟨inside, -, hmade⟩ := Module.made_of_evaluateWithin hdone
    have hismade : module.IsMade := ⟨setting, inside, name, found, _, hresolve, hmade⟩
    -- The module comes behind those that the evaluation has put into the store itself.
    refine ⟨hinside.modules.trans (m'.store.prefix_addModule module), fun hm => ?_⟩
    have hadded := (((beginLoad hstart).trans hinside).stocked hm).completeLoad hismade
    rwa [hmade.key_eq] at hadded

/-- Calls and loads keep what is in stock. -/
theorem hosts (setting : Setting) (frames : Nat) :
    Congruence.Hosts (fun _ e _ => ∀ m, Machine.Extends m (e.after m)) (Host.withFrames setting frames)
      (Host.withFrames setting frames) := by
  have congruence := stepClosed.congruence
  -- A frame runs code on a host with one frame less, so the induction is on the frames left.
  induction frames with
  | zero =>
    constructor
    · intro callee args span m
      exact refl m
    · intro name m
      refine load (fun _ m => ?_) m
      exact refl m
  | succ frames ih =>
    constructor
    · intro callee args span m
      change m.Extends ((Eval.inFrame _).after m)
      rw [Eval.after_inFrame]
      exact frame (congruence.applyValue ih callee args span _)
    · intro name m
      refine load (fun source m => ?_) m
      rw [evaluateWithin, Eval.after_inFrame]
      exact frame (congruence.evalModule ih (bareName name) source _)

/-- From moment to moment nothing of the stock is lost. -/
theorem closed : Moment.Closed Machine.Extends where
  toStepClosed := stepClosed
  withUnit := withUnit
  withDepth := withDepth
  hosts := hosts

/-- A request keeps what is in stock. -/
theorem perform (setting : Setting) (request : Request) (m : Machine) :
    m.Extends ((request.perform setting).after m) := by
  have hosts := hosts setting (setting.maxFrames - m.depth)
  rw [Eval.after, request.perform_eq_on setting m, ← Eval.after]
  exact stepClosed.congruence.request hosts request m

theorem loaded {name : String} {y : Moment} (h : Moment.Loaded setting frames name m y) :
    m.Extends y.machine := by
  obtain ⟨found, registry, -, hstart, hinside⟩ := closed.loaded h
  exact (beginLoad hstart).trans hinside

theorem turns {x y : Moment} (h : x.Turns setting y) : x.machine.Extends y.machine := by
  rcases h.staysIn_or_asksFor with hstays | ⟨name, m, hasks, hloaded⟩
  · exact closed.staysIn hstays
  · exact (closed.asksFor hasks).trans (loaded hloaded)

theorem visits {request : Request} {y : Moment} (h : request.Visits setting m y) :
    m.Extends y.machine := by
  obtain ⟨x, hbegins, hreaches⟩ := h
  have hfirst : m.Extends x.machine := by
    rcases closed.begins hbegins with hstays | ⟨name, -, hloaded⟩
    · exact hstays
    · exact loaded hloaded
  induction hreaches with
  | refl => exact hfirst
  | tail _ hturns ih => exact ih.trans (turns hturns)

end Extends

/-- The machines of all sessions: at the start, after a request, and at the moments of a request. -/
inductive Occurs : Machine → Prop where
  | start (echo : Bool) : Occurs (Machine.start echo)
  | after {m : Machine} (setting : Setting) (request : Request) : Occurs m →
    Occurs ((request.perform setting).after m)
  | moment {m : Machine} {setting : Setting} {request : Request} {y : Moment} : Occurs m →
    request.Visits setting m y → Occurs y.machine

/-- Between two requests of a session the machine occurs. -/
theorem Occurs.of_history (echo : Bool) (history : List (Setting × Request)) :
    (Session.after history (Machine.start echo)).Occurs :=
  Session.after_induction (fun _ setting request h => .after setting request h) history (.start echo)

theorem Occurs.stocked {m : Machine} (h : m.Occurs) : m.Stocked := by
  induction h with
  | start echo => exact stocked_start echo
  | after setting request _ ih => exact (Extends.perform setting request _).stocked ih
  | moment _ hvisits ih => exact (Extends.visits hvisits).stocked ih

end Machine

end ScriptLang
