import ScriptLang.Proofs.Module.Registry
import ScriptLang.Proofs.Session.Request

/-!
# A session between two requests

A request may end with a value, with a `return` outside of any function, or with a fault raised in
the middle of nested calls, blocks and loads. In each case what was put aside on the way in is put
back on the way out, so the next request finds the machine as the first one did: no call and no load
is in progress, and the unit is the one that was being evaluated before.

## Main definitions

* `Machine.Returns`: a later machine stands at the same point as an earlier one
* `Machine.AtRest`: no call and no load is in progress

## Main results

* `Machine.returns_runClosed`: every step comes back to the point where it began
* `Session.request_leaves_atRest`: a request leaves the session at rest, with a registry that has
  only grown
-/

namespace ScriptLang

/-- The second machine stands at the same point as the first: the same calls and loads are in
progress, for the same unit. In between, modules may have been loaded. -/
structure Machine.Returns (m m' : Machine) : Prop where
  depth : m'.depth = m.depth
  unit : m'.unit = m.unit
  registry : m.registry.Grows m'.registry
  modules : m.store.modules.toList <+: m'.store.modules.toList
  /-- The store holds what has been loaded in between. -/
  loaded {key : String} {ref : ModuleRef} : m'.registry.get? key = some ref →
    m.registry.get? key = some ref ∨ ref.id < m'.store.modules.size

namespace Machine.Returns

theorem size_le {m m' : Machine} (h : m.Returns m') :
    m.store.modules.size ≤ m'.store.modules.size := by
  rw [← Array.length_toList, ← Array.length_toList]
  exact h.modules.length_le

/-- A module that the store holds stays as it is. -/
theorem module?_eq {m m' : Machine} (h : m.Returns m') {ref : ModuleRef}
    (href : ref.id < m.store.modules.size) : m'.store.module? ref = m.store.module? ref := by
  obtain ⟨new, hnew⟩ := h.modules
  rw [Store.module?, Store.module?, ← Array.getElem?_toList, ← Array.getElem?_toList, ← hnew]
  exact List.getElem?_append_left (by rwa [Array.length_toList])

/-- Nothing has happened to the registry and the modules. -/
theorem of_eq {m m' : Machine} (depth : m'.depth = m.depth) (unit : m'.unit = m.unit)
    (registry : m'.registry = m.registry) (modules : m'.store.modules = m.store.modules) :
    m.Returns m' where
  depth := depth
  unit := unit
  registry := registry ▸ .refl _
  modules := modules ▸ List.prefix_rfl
  loaded h := .inl (registry ▸ h)

theorem trans {m m' m'' : Machine} (h : m.Returns m') (h' : m'.Returns m'') : m.Returns m'' where
  depth := h'.depth.trans h.depth
  unit := h'.unit.trans h.unit
  registry := h.registry.trans h'.registry
  modules := h.modules.trans h'.modules
  loaded hloaded := by
    rcases h'.loaded hloaded with hloaded | hsize
    · exact (h.loaded hloaded).imp_right fun hsize => Nat.lt_of_lt_of_le hsize h'.size_le
    · exact .inr hsize

/-- The steps that only work on the store keep its modules. -/
theorem stepClosed : StepClosed Machine.Returns where
  refl _ := of_eq rfl rfl rfl rfl
  trans := trans
  store _ _ hs := of_eq rfl rfl rfl hs
  output _ _ := of_eq rfl rfl rfl rfl
  unit _ h := ⟨h.depth, rfl, h.registry, h.modules, h.loaded⟩

/-- A load that fails is forgotten, except for the modules loaded on the way. -/
theorem abortLoad {m m' : Machine} {found : ResolvedModule} {name : String}
    {registry : Registry ModuleRef}
    (hstart : m.registry.start? found.key name = .ok (.started registry))
    (h : (m.beginLoad found registry).Returns m') : m.Returns (m'.abortLoad found.key) where
  depth := h.depth
  unit := h.unit
  registry := h.registry.abort hstart
  modules := h.modules
  loaded {k ref} hloaded := by
    -- The key itself has no module afterwards; any other is as it was at the end of the evaluation.
    have hinside : m'.registry.get? k = some ref := by
      change (m'.registry.abort found.key).get? k = some ref at hloaded
      rw [Registry.get?_abort] at hloaded
      split at hloaded
      · cases hloaded
      · exact hloaded
    exact (h.loaded hinside).imp_left fun hbegun =>
      (Registry.get?_of_started hstart k).symm.trans hbegun

/-- A load that succeeds keeps its module as well. -/
theorem completeLoad {m m' : Machine} {found : ResolvedModule} {name : String}
    {registry : Registry ModuleRef}
    (hstart : m.registry.start? found.key name = .ok (.started registry))
    (h : (m.beginLoad found registry).Returns m') (module : Module) :
    m.Returns ({ m' with store := (m'.store.addModule module).2 }.completeLoad found.key
      (m'.store.addModule module).1) where
  depth := h.depth
  unit := h.unit
  registry := h.registry.complete hstart _
  modules := by
    refine h.modules.trans ?_
    change m'.store.modules.toList <+: (m'.store.modules.push module).toList
    rw [Array.toList_push]
    exact List.prefix_append _ _
  loaded {k ref} hloaded := by
    change ((m'.registry.complete found.key _).get? k = some ref) at hloaded
    change _ ∨ ref.id < (m'.store.modules.push module).size
    rw [Registry.get?_complete] at hloaded
    rw [Array.size_push]
    split at hloaded
    · -- The module of this load is the last one in the store.
      cases hloaded
      exact .inr (Nat.lt_succ_self _)
    · rcases h.loaded hloaded with hbegun | hsize
      · exact .inl ((Registry.get?_of_started hstart k).symm.trans hbegun)
      · exact .inr (Nat.lt_succ_of_lt hsize)

/-- A load ends where it began, whether its module is evaluated or not, and whether that succeeds.
-/
theorem load (resolve : Resolver) (name : String) (evaluate : SourceUnit → Eval Module)
    (hevaluate : ∀ source m, Machine.Returns m ((evaluate source).after m)) (m : Machine) :
    m.Returns ((loadModule resolve name evaluate).after m) := by
  have hrun := loadModule_run resolve name evaluate m
  rw [Eval.after]
  generalize loadModule resolve name evaluate m = result at hrun ⊢
  -- Only a load that begins touches the registry and the store.
  cases hrun with
  | notFound | refused | reused => exact of_eq rfl rfl rfl rfl
  | @aborted found registry d m' _ hstart hfail =>
    have hinside := hevaluate ⟨found.key, found.text⟩ (m.beginLoad found registry)
    rw [Eval.after_of_error hfail] at hinside
    exact hinside.abortLoad hstart
  | @completed found registry module m' _ hstart hdone =>
    have hinside := hevaluate ⟨found.key, found.text⟩ (m.beginLoad found registry)
    rw [Eval.after_of_ok hdone] at hinside
    exact hinside.completeLoad hstart module

end Machine.Returns

/-- Every step comes back to the point where it began. -/
theorem Machine.returns_runClosed : RunClosed Machine.Returns where
  toStepClosed := Returns.stepClosed
  frame h := ⟨rfl, h.unit, h.registry, h.modules, h.loaded⟩
  load := Returns.load

/-- No call and no load is in progress, and every module that counts as loaded is in the store. -/
structure Machine.AtRest (m : Machine) : Prop where
  depth : m.depth = 0
  pending : m.registry.pending = []
  state (key : String) : m.registry.state key ≠ .loading
  loaded {key : String} {ref : ModuleRef} : m.registry.get? key = some ref →
    ref.id < m.store.modules.size

namespace Machine.AtRest

theorem start (echo : Bool) : (Machine.start echo).AtRest where
  depth := rfl
  pending := rfl
  state key := by
    rw [Registry.state]
    simp [Machine.start]
  loaded h := by cases h

/-- A machine that stands where one at rest stood is at rest. -/
theorem of_returns {m m' : Machine} (h : m.AtRest) (hreturns : m.Returns m') : m'.AtRest where
  depth := hreturns.depth.trans h.depth
  pending := hreturns.registry.pending.trans h.pending
  state key := by
    intro hloading
    refine h.state key ?_
    rw [Registry.state_eq_loading_iff] at hloading ⊢
    exact hreturns.registry.loading_iff.1 hloading
  loaded hloaded := by
    rcases hreturns.loaded hloaded with hloaded | hsize
    · exact Nat.lt_of_lt_of_le (h.loaded hloaded) hreturns.size_le
    · exact hsize

end Machine.AtRest

namespace Session

/-- Between two requests a session is at rest. -/
theorem atRest_after (echo : Bool) (history : List (Setting × Request)) :
    (after history (Machine.start echo)).AtRest := by
  refine after_induction (fun m setting request hm => ?_) history (.start echo)
  exact hm.of_returns (Machine.returns_runClosed.perform setting request m)

/-- **A request leaves the session at rest.** However the requests before it and the request itself
end, afterwards no call and no load is in progress, no key is taken, and the unit is the one from
before. The registry is the one from before, with the same modules under the same keys in the same
order, followed by the modules loaded since. -/
theorem request_leaves_atRest (echo : Bool) (history : List (Setting × Request)) (setting : Setting)
    (request : Request) :
    let before := after history (Machine.start echo)
    let later := (request.perform setting).after before
    later.depth = 0 ∧ later.unit = before.unit ∧ later.registry.pending = [] ∧
      (∀ key, later.registry.state key ≠ .loading) ∧
      before.registry.Grows later.registry ∧
      ∀ key ref, before.registry.get? key = some ref →
        ∃ module, before.store.module? ref = some module ∧
          later.store.module? ref = some module := by
  intro before later
  have hbefore : before.AtRest := atRest_after echo history
  have hreturns : before.Returns later := Machine.returns_runClosed.perform setting request before
  have hlater : later.AtRest := hbefore.of_returns hreturns
  refine ⟨hlater.depth, hreturns.unit, hlater.pending, hlater.state, hreturns.registry, ?_⟩
  intro key ref href
  -- The store holds the module, and keeps what it holds.
  have hsize := hbefore.loaded href
  have hmodule : before.store.module? ref = some before.store.modules[ref.id] :=
    Array.getElem?_eq_getElem hsize
  exact ⟨_, hmodule, (hreturns.module?_eq hsize).trans hmodule⟩

end Session

end ScriptLang
