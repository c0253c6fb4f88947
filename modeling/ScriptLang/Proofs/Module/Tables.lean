import Mathlib.Data.List.Nodup
import ScriptLang.Diagnostic.Basic
import ScriptLang.Proofs.Module.Registry

/-!
# The two tables of the registry

What is being loaded the registry knows twice: from its entries, and from the list of the loads in
progress. Loads may begin, complete and abort in any order and under any keys, those included whose
load has never begun; the two tables agree all along.

## Main definitions

* `RegistryCall`, `Registry.perform`, `Registry.performAll`: what can be asked of a registry, and what
  it is afterwards
* `Registry.Agrees`: the loads in progress are those of the keys that are entered as loading
* `Registry.Attempts`: loads that begin and abort, one inside the other

## Main results

* `Registry.Agrees.perform`: the tables agree after a call if they agreed before
* `Registry.Agrees.exists_cycle`: the names on the way back to a key that is being loaded
* `Registry.Attempts.performAll_eq`: loads that abort leave the registry as it was
* `Registry.tables_agree`: all of this after any calls
-/

namespace ScriptLang

/-- What can be asked of a registry. -/
inductive RegistryCall (μ : Type) where
  | start (key name : String)
  | complete (key : String) (m : μ)
  | abort (key : String)

/-- A name that was entered last can be taken out again. -/
theorem Table.erase_insert {α : Type} {t : Table α} {name : String} (h : t.get? name = none)
    (value : α) : (t.insert name value).erase name = t := by
  have habsent : name ∉ t.entries.map Prod.fst := (findEntry_eq_none_iff name _).1 h
  have hlast : (t.insert name value).entries = t.entries ++ [(name, value)] := by
    have happend := insertEntry_append habsent value []
    rwa [List.append_nil] at happend
  obtain ⟨entries, hnodup⟩ := t
  simp only [erase, hlast, List.filter_append, filter_ne_eq_self habsent]
  simp

namespace Registry

variable {μ : Type} {r : Registry μ} {key name : String}

/-- The registry after a call. A load that is refused, or not needed any more, changes nothing. -/
def perform (r : Registry μ) : RegistryCall μ → Registry μ
  | .start key name =>
    match r.start? key name with
    | .ok (.started s) => s
    | .ok (.cached _) | .error _ => r
  | .complete key m => r.complete key m
  | .abort key => r.abort key

/-- The registry after some calls. -/
def performAll (r : Registry μ) (calls : List (RegistryCall μ)) : Registry μ := calls.foldl perform r

/-- The keys of the loads in progress, outermost first. -/
def pendingKeys (r : Registry μ) : List String := r.pending.map PendingLoad.key

/-- The two tables agree: no key is in progress twice, and those in progress are entered so. -/
structure Agrees (r : Registry μ) : Prop where
  nodup : r.pendingKeys.Nodup
  mem_iff (key : String) : key ∈ r.pendingKeys ↔ r.state key = .loading

/-! ### The loads in progress -/

theorem eraseP_eq_filter {loads : List PendingLoad} (h : (loads.map PendingLoad.key).Nodup)
    (key : String) :
    (loads.eraseP fun load => load.key = key) = loads.filter fun load => load.key ≠ key := by
  induction loads with
  | nil => rfl
  | cons load loads ih =>
    rw [List.map_cons, List.nodup_cons] at h
    by_cases hkey : load.key = key
    · have hothers : ∀ other ∈ loads, decide (other.key ≠ key) = true := by
        intro other hother
        refine decide_eq_true fun heq => h.1 ?_
        exact hkey.trans heq.symm ▸ List.mem_map_of_mem hother
      rw [List.filter_cons_of_neg (by simpa using hkey), List.filter_eq_self.2 hothers]
      simp [hkey]
    · simpa [hkey] using ih h.2

/-- If no key is in progress twice, to end the load of a key leaves those of all others. -/
theorem withoutPending_eq_filter {pending : List PendingLoad}
    (h : (pending.map PendingLoad.key).Nodup) (key : String) :
    withoutPending key pending = pending.filter fun load => load.key ≠ key := by
  have hreverse : (pending.reverse.map PendingLoad.key).Nodup := by
    rwa [List.map_reverse, List.nodup_reverse]
  -- The innermost load of the key is its only one, so it does not matter from where it is searched.
  rw [withoutPending, eraseP_eq_filter hreverse, List.filter_reverse, List.reverse_reverse]

/-- A load in progress stands between those around it and those inside it. -/
theorem Agrees.exists_split (h : r.Agrees) (hloading : r.state key = .loading) :
    ∃ outer load inner, r.pending = outer ++ load :: inner ∧ load.key = key ∧
      ∀ other ∈ outer ++ inner, other.key ≠ key := by
  obtain ⟨load, hmem, hkey⟩ := List.mem_map.1 ((h.mem_iff key).2 hloading)
  obtain ⟨outer, inner, hsplit⟩ := List.append_of_mem hmem
  refine ⟨outer, load, inner, hsplit, hkey, fun other hother heq => ?_⟩
  -- Another load of the key would be in progress beside this one.
  have hnodup := h.nodup
  rw [pendingKeys, hsplit, List.map_append, List.map_cons, List.nodup_middle, ← List.map_append,
    hkey] at hnodup
  exact (List.nodup_cons.1 hnodup).1 (heq ▸ List.mem_map_of_mem hother)

/-- The names on the way back to a key that is being loaded begin with the one that its load was asked
for by. -/
theorem Agrees.exists_cycle (h : r.Agrees) (hloading : r.state key = .loading) (name : String) :
    ∃ outer load inner, r.pending = outer ++ load :: inner ∧ load.key = key ∧
      (∀ other ∈ outer ++ inner, other.key ≠ key) ∧
      r.cycle key name = load.name :: inner.map PendingLoad.name ++ [name] := by
  obtain ⟨outer, load, inner, hsplit, hkey, hothers⟩ := h.exists_split hloading
  refine ⟨outer, load, inner, hsplit, hkey, hothers, ?_⟩
  have houter : ∀ other ∈ outer, (other.key != key) = true := fun other hother =>
    bne_iff_ne.2 (hothers other (List.mem_append_left _ hother))
  rw [cycle, hsplit, List.dropWhile_append_of_pos houter]
  simp [hkey]

/-! ### One call -/

/-- A load whose key is not known begins. -/
theorem perform_start (h : r.state key = .notLoaded) (name : String) :
    r.start? key name = .ok (.started (r.perform (.start key name))) ∧
      r.perform (.start key name) =
        ⟨r.entries.insert key .loading, r.pending ++ [⟨key, name⟩]⟩ := by
  have hnone : r.entries.get? key = none := by
    rw [state] at h
    split at h
    · assumption
    · cases h
    · cases h
  constructor
  · simp [perform, start?, hnone]
  · simp [perform, start?, hnone]

/-- A load that does not begin changes nothing. -/
theorem perform_start_of_ne (h : r.state key ≠ .notLoaded) (name : String) :
    r.perform (.start key name) = r := by
  rw [perform]
  split
  · next hstart => exact absurd (state_eq_notLoaded_of_started hstart) h
  · rfl
  · rfl

theorem Agrees.start (h : r.Agrees) (key name : String) : (r.perform (.start key name)).Agrees := by
  by_cases hstate : r.state key = .notLoaded
  · obtain ⟨hstart, hperform⟩ := perform_start hstate name
    have hkeys : (r.perform (.start key name)).pendingKeys = r.pendingKeys ++ [key] := by
      rw [hperform, pendingKeys, pendingKeys, List.map_append]
      rfl
    have hnew : key ∉ r.pendingKeys := by
      rw [h.mem_iff, hstate]
      simp
    refine ⟨?_, fun k => ?_⟩
    · rw [hkeys, List.nodup_append_comm, List.singleton_append]
      exact List.nodup_cons.2 ⟨hnew, h.nodup⟩
    · rw [hkeys, List.mem_append, List.mem_singleton, h.mem_iff, state_of_started hstart]
      by_cases hk : key = k <;> simp [hk, eq_comm]
  · rw [perform_start_of_ne hstate]
    exact h

/-- A registry in which the loads of a key are over and all others are as they were. -/
theorem Agrees.ended {s : Registry μ} (h : r.Agrees)
    (hpending : s.pending = withoutPending key r.pending) (hself : s.state key ≠ .loading)
    (hothers : ∀ k, key ≠ k → s.state k = r.state k) : s.Agrees := by
  have hfilter : s.pending = r.pending.filter fun load => load.key ≠ key := by
    rw [hpending, withoutPending_eq_filter h.nodup]
  refine ⟨?_, fun k => ?_⟩
  · rw [pendingKeys, hfilter]
    exact h.nodup.sublist (List.filter_sublist.map _)
  · by_cases hk : key = k
    · subst hk
      have hover : key ∉ s.pendingKeys := by simp [pendingKeys, hfilter]
      exact iff_of_false hover hself
    · rw [hothers k hk, ← h.mem_iff, pendingKeys, pendingKeys, hfilter]
      -- A load of the other key is not among those that have been left out.
      have hkeep (load : PendingLoad) (hload : load.key = k) : load.key ≠ key :=
        fun heq => hk (heq.symm.trans hload)
      simp only [List.mem_map, List.mem_filter, decide_eq_true_eq]
      exact ⟨fun ⟨load, ⟨hmem, _⟩, hload⟩ => ⟨load, hmem, hload⟩,
        fun ⟨load, hmem, hload⟩ => ⟨load, ⟨hmem, hkeep load hload⟩, hload⟩⟩

/-- The tables agree after every call if they agreed before. -/
theorem Agrees.perform (h : r.Agrees) (call : RegistryCall μ) : (r.perform call).Agrees := by
  cases call with
  | start key name => exact h.start key name
  | complete key m =>
    have hpending : (r.perform (.complete key m)).pending = withoutPending key r.pending := rfl
    refine h.ended hpending ?_ fun k hk => ?_
    · simp [Registry.perform, state_complete]
    · simp [Registry.perform, state_complete, hk]
  | abort key =>
    have hpending : (r.perform (.abort key)).pending = withoutPending key r.pending := rfl
    refine h.ended hpending ?_ fun k hk => ?_
    · simp [Registry.perform, state_abort]
    · simp [Registry.perform, state_abort, hk]

/-! ### Many calls -/

theorem agrees_empty : ({} : Registry μ).Agrees := by
  refine ⟨List.nodup_nil, fun key => ?_⟩
  rw [state_eq_loading_iff]
  simp [pendingKeys]

theorem agrees_performAll (calls : List (RegistryCall μ)) (h : r.Agrees) :
    (r.performAll calls).Agrees := by
  induction calls generalizing r with
  | nil => exact h
  | cons call calls ih => exact ih (h.perform call)

/-- Loads that begin and abort one after the other, each with more of them inside. The key of each is
not known when it begins, so it is none of those around it. -/
inductive Attempts : Registry μ → List (RegistryCall μ) → Prop where
  | nil {r : Registry μ} : Attempts r []
  | load {r : Registry μ} {key name : String} {inside after : List (RegistryCall μ)} :
    r.state key = .notLoaded → Attempts (r.perform (.start key name)) inside → Attempts r after →
    Attempts r (.start key name :: inside ++ .abort key :: after)

/-- A load that aborts at once has changed nothing. -/
theorem abort_perform_start (h : r.state key = .notLoaded) (name : String) :
    (r.perform (.start key name)).abort key = r := by
  obtain ⟨hstart, hperform⟩ := perform_start h name
  have hentries : (r.entries.insert key LoadEntry.loading).erase key = r.entries :=
    Table.erase_insert (start?_eq_started hstart).1 _
  rw [hperform, abort, hentries, withoutPending_append_self]

/-- Loads that abort leave the registry as it was. -/
theorem Attempts.performAll_eq {calls : List (RegistryCall μ)} (h : r.Attempts calls) :
    r.performAll calls = r := by
  induction h with
  | nil => rfl
  | @load r key name inside after hstate _ _ hinside hafter =>
    -- The loads inside leave the one around them as it was, and that one is then aborted.
    calc r.performAll (.start key name :: inside ++ .abort key :: after)
        = (((r.perform (.start key name)).performAll inside).abort key).performAll after := by
          simp [performAll, perform]
      _ = r := by rw [hinside, abort_perform_start hstate, hafter]

/-! ### The tables after any calls -/

theorem mem_loadedKeys (r : Registry μ) (key : String) :
    key ∈ r.loadedKeys ↔ r.state key = .loaded := by
  rw [loadedKeys, List.mem_filter, Table.mem_names_iff, decide_eq_true_eq, and_iff_right_iff_imp]
  intro hloaded
  rw [state] at hloaded
  split at hloaded
  · cases hloaded
  · cases hloaded
  · next h => simp [h]

/-- **The two tables of the registry agree.** After any calls, in any order and with any keys: no key
is in progress twice, and the keys in progress are those that are being loaded; the loaded keys are
listed once each. A load that is refused, or finds its module, changes nothing; a refused one reports the
names from the load in progress of its key to the innermost one, and the new name. Loads that begin
under keys that are not known and abort leave the registry exactly as it was. -/
theorem tables_agree (calls : List (RegistryCall μ)) :
    let r := ({} : Registry μ).performAll calls
    r.pendingKeys.Nodup ∧ (∀ key, key ∈ r.pendingKeys ↔ r.state key = .loading) ∧
    r.loadedKeys.Nodup ∧ (∀ key, key ∈ r.loadedKeys ↔ r.state key = .loaded) ∧
    (∀ key name m, r.start? key name = .ok (.cached m) → r.perform (.start key name) = r) ∧
    (∀ key name fault, r.start? key name = .error fault → r.perform (.start key name) = r ∧
      ∃ outer load inner, r.pending = outer ++ load :: inner ∧ load.key = key ∧
        (∀ other ∈ outer ++ inner, other.key ≠ key) ∧ fault.report.kind = .circularImport ∧
        fault.report.message = "circular import detected: " ++
          String.intercalate " -> " (load.name :: inner.map PendingLoad.name ++ [name])) ∧
    ∀ key name inside, r.state key = .notLoaded → (r.perform (.start key name)).Attempts inside →
      r.performAll (.start key name :: inside ++ [.abort key]) = r := by
  intro r
  have hagrees : r.Agrees := agrees_performAll calls agrees_empty
  refine ⟨hagrees.nodup, hagrees.mem_iff, ?_, r.mem_loadedKeys, ?_, ?_, ?_⟩
  · exact r.entries.nodup.filter _
  · intro key name m hcached
    refine perform_start_of_ne (fun hstate => ?_) name
    rw [(perform_start hstate name).1] at hcached
    cases hcached
  · intro key name fault hrefused
    obtain ⟨hloading, rfl⟩ := start?_eq_error_iff.1 hrefused
    obtain ⟨outer, load, inner, hsplit, hkey, hothers, hcycle⟩ := hagrees.exists_cycle hloading name
    refine ⟨perform_start_of_ne (by simp [hloading]) name, outer, load, inner, hsplit, hkey, hothers,
      rfl, ?_⟩
    rw [← hcycle]
    rfl
  · intro key name inside hstate hinside
    exact (Attempts.load hstate hinside .nil).performAll_eq

end Registry

end ScriptLang
