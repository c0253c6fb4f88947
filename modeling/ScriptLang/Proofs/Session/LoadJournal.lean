import ScriptLang.Proofs.Module.Journal
import ScriptLang.Proofs.Module.Registry
import ScriptLang.Proofs.Session.Request

/-!
# The journal of a session

Loads nest through top levels of modules, calls and callbacks, fail and are tried again, and reach
one key by many names. The registry and the journal stay in step through all of this, and as the
registry lets only what is allowed happen, the journal of a session is lawful.

## Main definitions

* `Machine.Consistent`: the registry knows what the journal tells
* `Machine.Continues`: a later machine has the same loads in progress and some more, and is consistent
  if the earlier one was

## Main results

* `Machine.Continues.runClosed`: every step continues the journal by loads that have ended
* `Session.consistent_after`, `Session.inProgress_after`: the journal of a session is in step with the
  registry, and between two requests no load is in progress
-/

namespace ScriptLang

/-- The journal is lawful, and the registry knows what it tells. -/
structure Machine.Consistent (m : Machine) : Prop where
  lawful : Lawful m.journal
  loading (key : String) : m.registry.state key = .loading ↔ key ∈ inProgress m.journal
  loaded (key : String) (ref : ModuleRef) :
    m.registry.get? key = some ref ↔ .completed key ref ∈ m.journal

namespace Machine.Consistent

variable {m : Machine} {key name : String}

theorem start (echo : Bool) : (Machine.start echo).Consistent where
  lawful := .nil
  loading key := by
    rw [Registry.state_eq_loading_iff]
    simp [Machine.start, inProgress]
  loaded key ref := by
    rw [Registry.get?_eq_some_iff]
    simp [Machine.start]

/-- Only the registry and the journal matter. -/
theorem of_eq {m' : Machine} (h : m.Consistent) (registry : m'.registry = m.registry)
    (journal : m'.journal = m.journal) : m'.Consistent where
  lawful := by rw [journal]; exact h.lawful
  loading key := by rw [registry, journal]; exact h.loading key
  loaded key ref := by rw [registry, journal]; exact h.loaded key ref

theorem refuse (h : m.Consistent) (hkey : m.registry.state key = .loading) :
    (m.record (.refused key)).Consistent where
  lawful := h.lawful.cons ((h.loading key).1 hkey)
  loading := h.loading
  loaded k ref := (h.loaded k ref).trans (by simp [record])

theorem reuse {ref : ModuleRef} (h : m.Consistent) (hkey : m.registry.get? key = some ref) :
    (m.record (.reused key ref)).Consistent where
  lawful := h.lawful.cons ((h.loaded key ref).1 hkey)
  loading := h.loading
  loaded k ref := (h.loaded k ref).trans (by simp [record])

theorem beginLoad {found : ResolvedModule} {registry : Registry ModuleRef} (h : m.Consistent)
    (hstart : m.registry.start? found.key name = .ok (.started registry)) :
    (m.beginLoad found registry).Consistent where
  lawful := by
    -- The registry does not know the key, so neither does the journal.
    obtain ⟨hnone, -⟩ := Registry.start?_eq_started hstart
    refine h.lawful.cons ⟨?_, fun ref => ?_⟩
    · rw [← h.loading, Registry.state_eq_loading_iff, hnone]
      simp
    · rw [← h.loaded, Registry.get?_eq_some_iff, hnone]
      simp
  loading k := by
    change registry.state k = .loading ↔ k ∈ found.key :: inProgress m.journal
    rw [Registry.state_of_started hstart, List.mem_cons, ← h.loading]
    by_cases hk : found.key = k
    · simp [hk]
    · simp [hk, Ne.symm hk]
  loaded k ref := by
    change registry.get? k = some ref ↔ .completed k ref ∈ .began found.key found.text :: m.journal
    rw [Registry.get?_of_started hstart, h.loaded]
    simp

/-- What is still being loaded when the load of a key ends. -/
theorem mem_erase_iff (h : m.Consistent) (key k : String) :
    k ∈ (inProgress m.journal).erase key ↔ key ≠ k ∧ m.registry.state k = .loading := by
  rw [h.lawful.nodup_inProgress.mem_erase_iff, ← h.loading, ne_comm]

section Ends

variable {outer : List String} (h : m.Consistent) (hkey : inProgress m.journal = key :: outer)
include h hkey

theorem completeLoad (ref : ModuleRef) : (m.completeLoad key ref).Consistent where
  lawful := h.lawful.cons ⟨outer, hkey⟩
  loading k := by
    change (m.registry.complete key ref).state k = .loading ↔ k ∈ (inProgress m.journal).erase key
    rw [Registry.state_complete, h.mem_erase_iff key]
    by_cases hk : key = k <;> simp [hk]
  loaded k ref' := by
    change (m.registry.complete key ref).get? k = some ref' ↔
      .completed k ref' ∈ .completed key ref :: m.journal
    rw [Registry.get?_complete]
    by_cases hk : key = k
    · subst hk
      -- The key is being loaded, so the journal tells of no module for it yet.
      have hnew : .completed key ref' ∉ m.journal :=
        h.lawful.not_completed (hkey ▸ List.mem_cons_self) ref'
      simp [hnew, eq_comm]
    · simp [hk, h.loaded, Ne.symm hk]

theorem abortLoad : (m.abortLoad key).Consistent where
  lawful := h.lawful.cons ⟨outer, hkey⟩
  loading k := by
    change (m.registry.abort key).state k = .loading ↔ k ∈ (inProgress m.journal).erase key
    rw [Registry.state_abort, h.mem_erase_iff key]
    by_cases hk : key = k <;> simp [hk]
  loaded k ref := by
    change (m.registry.abort key).get? k = some ref ↔ .completed k ref ∈ .aborted key :: m.journal
    rw [Registry.get?_abort]
    by_cases hk : key = k
    · subst hk
      have hnew : .completed key ref ∉ m.journal :=
        h.lawful.not_completed (hkey ▸ List.mem_cons_self) ref
      simp [hnew]
    · simp [hk, h.loaded]

end Ends

end Machine.Consistent

/-- The journal of the second machine continues that of the first, by loads that have ended and by those
of the keys, which are in progress, the innermost first. No module is lost in between. -/
structure Machine.Continues (keys : List String) (m m' : Machine) : Prop where
  journal : m.journal <:+ m'.journal
  inProgress : inProgress m'.journal = keys ++ inProgress m.journal
  modules : m.store.modules.toList <+: m'.store.modules.toList
  consistent : m.Consistent → m'.Consistent

namespace Machine.Continues

variable {m m' m'' : Machine} {key name : String} {keys inner : List String}
  {registry : Registry ModuleRef}

/-- Nothing has happened to a load. -/
theorem of_eq (registry : m'.registry = m.registry) (journal : m'.journal = m.journal)
    (modules : m'.store.modules = m.store.modules) : Continues [] m m' where
  journal := journal ▸ List.suffix_rfl
  inProgress := by rw [journal, List.nil_append]
  modules := modules ▸ List.prefix_rfl
  consistent h := h.of_eq registry journal

theorem refl (m : Machine) : Continues [] m m := of_eq rfl rfl rfl

/-- The loads in progress in the second part are inside those of the first. -/
theorem trans (h : Continues keys m m') (h' : Continues inner m' m'') :
    Continues (inner ++ keys) m m'' where
  journal := h.journal.trans h'.journal
  inProgress := by rw [h'.inProgress, h.inProgress, List.append_assoc]
  modules := h.modules.trans h'.modules
  consistent hm := h'.consistent (h.consistent hm)

/-- The machine turns to another unit. -/
theorem withUnit (m : Machine) (unit : String) : Continues [] m { m with unit := unit } :=
  of_eq rfl rfl rfl

/-- The machine counts other frames. -/
theorem withDepth (m : Machine) (depth : Nat) : Continues [] m { m with depth := depth } :=
  of_eq rfl rfl rfl

theorem stepClosed : StepClosed (Continues []) where
  refl := refl
  trans := trans
  store _ _ hs := of_eq rfl rfl hs
  output _ _ := of_eq rfl rfl rfl
  unit unit h := (withUnit _ unit).trans (h.trans (withUnit _ _))

/-- From its answer on a load is in progress. -/
theorem beginLoad {found : ResolvedModule}
    (hstart : m.registry.start? found.key name = .ok (.started registry)) :
    Continues [found.key] m (m.beginLoad found registry) where
  journal := List.suffix_cons _ _
  inProgress := rfl
  modules := List.prefix_rfl
  consistent hm := hm.beginLoad hstart

section Ends

variable (h : Continues [key] m m')
include h

/-- A load that fails is not in progress any more. -/
theorem abortLoad : Continues [] m (m'.abortLoad key) where
  journal := h.journal.trans (List.suffix_cons _ _)
  inProgress := by
    change (ScriptLang.inProgress m'.journal).erase key = _
    rw [h.inProgress]
    exact List.erase_cons_head ..
  modules := h.modules
  consistent hm := (h.consistent hm).abortLoad h.inProgress

/-- A load that succeeds is not in progress any more, and leaves its module. -/
theorem completeLoad (module : Module) (ref : ModuleRef) :
    Continues [] m ({ m' with store := (m'.store.addModule module).2 }.completeLoad key ref) where
  journal := h.journal.trans (List.suffix_cons _ _)
  inProgress := by
    change (ScriptLang.inProgress m'.journal).erase key = _
    rw [h.inProgress]
    exact List.erase_cons_head ..
  modules := h.modules.trans (m'.store.prefix_addModule module)
  consistent hm := by
    -- To store the module changes neither the registry nor the journal.
    have hinside : ({ m' with store := (m'.store.addModule module).2 } : Machine).Consistent :=
      (h.consistent hm).of_eq rfl rfl
    exact hinside.completeLoad h.inProgress ref

end Ends

/-- A load continues the journal by what happens from its answer to its end. -/
theorem load (resolve : Resolver) (name : String) (evaluate : SourceUnit → Eval Module)
    (hevaluate : ∀ source m, Continues [] m ((evaluate source).after m)) (m : Machine) :
    Continues [] m ((loadModule resolve name evaluate).after m) := by
  have hrun := loadModule_run resolve name evaluate m
  rw [Eval.after]
  -- An evaluation leaves its own key the innermost one, so the end of the load takes that key away.
  generalize loadModule resolve name evaluate m = result at hrun ⊢
  cases hrun with
  | notFound => exact refl m
  | refused _ hstart =>
    have hloading := (Registry.start?_eq_error_iff.1 hstart).1
    exact ⟨List.suffix_cons _ _, rfl, List.prefix_rfl, fun hm => hm.refuse hloading⟩
  | reused _ hstart =>
    have hloaded := Registry.start?_eq_cached_iff.1 hstart
    exact ⟨List.suffix_cons _ _, rfl, List.prefix_rfl, fun hm => hm.reuse hloaded⟩
  | @aborted found registry d m' _ hstart hfail =>
    have hinside := hevaluate ⟨found.key, found.text⟩ (m.beginLoad found registry)
    rw [Eval.after_of_error hfail] at hinside
    exact ((beginLoad hstart).trans hinside).abortLoad
  | @completed found registry module m' _ hstart hdone =>
    have hinside := hevaluate ⟨found.key, found.text⟩ (m.beginLoad found registry)
    rw [Eval.after_of_ok hdone] at hinside
    exact ((beginLoad hstart).trans hinside).completeLoad module _

/-- Every step continues the journal by loads that have ended. -/
theorem runClosed : RunClosed (Continues []) where
  toStepClosed := stepClosed
  frame h := (withDepth _ _).trans (h.trans (withDepth _ _))
  load := load

/-- Requests leave no load in progress. -/
theorem after (m : Machine) (history : List (Setting × Request)) :
    Continues [] m (Session.after history m) := by
  refine Session.after_induction (fun m' setting request h => ?_) history (refl m)
  exact h.trans (runClosed.perform setting request m')

end Machine.Continues

namespace Session

/-- The registry and the journal of a session are in step. -/
theorem consistent_after (echo : Bool) (history : List (Setting × Request)) :
    (after history (Machine.start echo)).Consistent :=
  (Machine.Continues.after _ history).consistent (.start echo)

/-- Between two requests no load is in progress. -/
theorem inProgress_after (echo : Bool) (history : List (Setting × Request)) :
    inProgress (after history (Machine.start echo)).journal = [] :=
  (Machine.Continues.after (Machine.start echo) history).inProgress

end Session

end ScriptLang
