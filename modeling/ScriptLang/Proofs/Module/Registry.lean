import ScriptLang.Module.Registry

/-!
# What a load leaves of the registry

A load takes a key, evaluates a module, which may load others in turn, and then completes or aborts.
Whatever the loads inside did, the registry afterwards is the one before, in the same order, with
some loaded modules behind it.

## Main definitions

* `Registry.Grows`: the loads in progress are the same, and some modules have been loaded since

## Main results

* `Registry.Grows.complete`, `Registry.Grows.abort`: both ends of a load leave a registry that has
  grown
* `Registry.Grows.get?_of_some`: what was entered under a key stays
-/

namespace ScriptLang.Registry

variable {μ : Type} {r s t : Registry μ} {key name : String}

/-- The second registry has the loads in progress of the first, and the entries of the first, in the
same order, followed by those of modules that have been loaded since. -/
structure Grows (r s : Registry μ) : Prop where
  pending : s.pending = r.pending
  entries : ∃ new : List (String × LoadEntry μ), s.entries.entries = r.entries.entries ++ new ∧
    ∀ entry ∈ new, ∃ m, entry.2 = .loaded m

namespace Grows

theorem refl (r : Registry μ) : r.Grows r :=
  ⟨rfl, [], by simp, by simp⟩

theorem trans (h : r.Grows s) (h' : s.Grows t) : r.Grows t := by
  obtain ⟨new, hnew, hloaded⟩ := h.entries
  obtain ⟨new', hnew', hloaded'⟩ := h'.entries
  refine ⟨h'.pending.trans h.pending, new ++ new', ?_, ?_⟩
  · rw [hnew', hnew, List.append_assoc]
  · intro entry hentry
    rcases List.mem_append.1 hentry with hentry | hentry
    · exact hloaded entry hentry
    · exact hloaded' entry hentry

/-- What is entered under a key stays there. -/
theorem get?_of_some (h : r.Grows s) {entry : LoadEntry μ} (hr : r.entries.get? key = some entry) :
    s.entries.get? key = some entry := by
  obtain ⟨new, hnew, -⟩ := h.entries
  have hfound : findEntry key r.entries.entries = some entry := hr
  rw [Table.get?, hnew, findEntry_append, hfound, Option.some_or]

/-- A key that was not known is not being loaded. -/
theorem loaded_of_none (h : r.Grows s) {entry : LoadEntry μ} (hr : r.entries.get? key = none)
    (hs : s.entries.get? key = some entry) : ∃ m, entry = .loaded m := by
  obtain ⟨new, hnew, hloaded⟩ := h.entries
  have habsent : findEntry key r.entries.entries = none := hr
  rw [Table.get?, hnew, findEntry_append, habsent, Option.none_or] at hs
  exact hloaded _ (mem_of_findEntry hs)

/-- What is being loaded afterwards was being loaded before. -/
theorem loading_iff (h : r.Grows s) :
    s.entries.get? key = some .loading ↔ r.entries.get? key = some .loading := by
  constructor
  · intro hs
    cases hr : r.entries.get? key with
    | none =>
      obtain ⟨m, hm⟩ := h.loaded_of_none hr hs
      cases hm
    | some entry => rw [← h.get?_of_some hr, hs]
  · exact h.get?_of_some

end Grows

theorem state_eq_loading_iff : r.state key = .loading ↔ r.entries.get? key = some .loading := by
  rw [state]
  split
  · next h => simp [h]
  · next h => simp [h]
  · next m h => simp [h]

theorem get?_eq_some_iff {m : μ} : r.get? key = some m ↔ r.entries.get? key = some (.loaded m) := by
  rw [get?]
  cases r.entries.get? key with
  | none => simp
  | some entry => cases entry <;> simp

/-- What has a module is not being loaded. -/
theorem state_ne_loading_of_get? {m : μ} (h : r.get? key = some m) : r.state key ≠ .loading := by
  rw [Ne, state_eq_loading_iff, get?_eq_some_iff.1 h]
  nofun

/-! ### How a load begins -/

/-- A load begins only with a key that is not known. -/
theorem start?_eq_started (h : r.start? key name = .ok (.started s)) :
    r.entries.get? key = none ∧
      s = ⟨r.entries.insert key .loading, r.pending ++ [⟨key, name⟩]⟩ := by
  rw [start?] at h
  split at h
  · cases h
  · cases h
  · next hnone =>
    cases h
    exact ⟨hnone, rfl⟩

theorem state_eq_notLoaded_of_started (h : r.start? key name = .ok (.started s)) :
    r.state key = .notLoaded := by
  rw [state, (start?_eq_started h).1]

/-- No evaluation is needed exactly when there is a module. -/
theorem start?_eq_cached_iff {m : μ} :
    r.start? key name = .ok (.cached m) ↔ r.get? key = some m := by
  rw [start?, get?]
  split
  · next h => simp [h]
  · next h => simp [h]
  · next h => simp [h]

/-- A load is refused exactly when its key is being loaded. -/
theorem start?_eq_error_iff {fault : Fault} :
    r.start? key name = .error fault ↔
      r.state key = .loading ∧ fault = .circularImport (r.cycle key name) := by
  rw [start?, state_eq_loading_iff]
  split
  · next h => simp [h]
  · next h => simp [h, eq_comm]
  · next h => simp [h]

/-! ### What the steps of a load do to a key -/

theorem get?_complete (r : Registry μ) (key : String) (m : μ) (k : String) :
    (r.complete key m).get? k = if key = k then some m else r.get? k := by
  rw [get?, get?, complete]
  by_cases h : key = k <;> simp [h]

theorem get?_abort (r : Registry μ) (key k : String) :
    (r.abort key).get? k = if key = k then none else r.get? k := by
  rw [get?, get?, abort]
  by_cases h : key = k <;> simp [h]

/-- A load that begins makes no module. -/
theorem get?_of_started (h : r.start? key name = .ok (.started s)) (k : String) :
    s.get? k = r.get? k := by
  obtain ⟨hnone, rfl⟩ := start?_eq_started h
  rw [get?, get?]
  by_cases hk : key = k
  · subst hk
    simp [hnone]
  · simp [hk]

theorem state_complete (r : Registry μ) (key : String) (m : μ) (k : String) :
    (r.complete key m).state k = if key = k then .loaded else r.state k := by
  rw [state, state, complete]
  by_cases h : key = k <;> simp [h]

theorem state_abort (r : Registry μ) (key k : String) :
    (r.abort key).state k = if key = k then .notLoaded else r.state k := by
  rw [state, state, abort]
  by_cases h : key = k <;> simp [h]

/-- A load that begins takes its key. -/
theorem state_of_started (h : r.start? key name = .ok (.started s)) (k : String) :
    s.state k = if key = k then .loading else r.state k := by
  obtain ⟨-, rfl⟩ := start?_eq_started h
  rw [state, state]
  by_cases hk : key = k <;> simp [hk]

/-! ### The two ends of a load -/

/-- The load begun last is the first to end. -/
theorem withoutPending_append_self (key name : String) (pending : List PendingLoad) :
    withoutPending key (pending ++ [⟨key, name⟩]) = pending := by
  simp [withoutPending]

section Ends

variable (hstart : r.start? key name = .ok (.started s)) (hgrows : s.Grows t)
include hstart hgrows

/-- While a load is in progress its key stands between what was there before and what has been
loaded since, and nowhere else. -/
theorem Grows.entries_of_started :
    ∃ new : List (String × LoadEntry μ),
      t.entries.entries = r.entries.entries ++ (key, .loading) :: new ∧
      (∀ entry ∈ new, ∃ m, entry.2 = .loaded m) ∧
      key ∉ r.entries.entries.map Prod.fst ∧ key ∉ new.map Prod.fst := by
  obtain ⟨hnone, rfl⟩ := start?_eq_started hstart
  obtain ⟨new, hnew, hloaded⟩ := hgrows.entries
  have habsent : key ∉ r.entries.entries.map Prod.fst := (findEntry_eq_none_iff key _).1 hnone
  have hentered : (r.entries.insert key (LoadEntry.loading (μ := μ))).entries =
      r.entries.entries ++ [(key, .loading)] := by
    have happend := insertEntry_append habsent (LoadEntry.loading (μ := μ)) []
    rwa [List.append_nil] at happend
  have hentries : t.entries.entries = r.entries.entries ++ (key, .loading) :: new := by
    rw [hnew, hentered, List.append_assoc, List.singleton_append]
  refine ⟨new, hentries, hloaded, habsent, ?_⟩
  -- The keys of a table are distinct.
  have hnodup := t.entries.nodup
  rw [hentries, List.map_append, List.map_cons, List.nodup_append] at hnodup
  exact (List.nodup_cons.1 hnodup.2.1).1

theorem Grows.withoutPending_of_started : withoutPending key t.pending = r.pending := by
  obtain ⟨-, rfl⟩ := start?_eq_started hstart
  rw [hgrows.pending, withoutPending_append_self]

/-- A load that completes leaves its module and those loaded on the way. -/
theorem Grows.complete (m : μ) : r.Grows (t.complete key m) := by
  obtain ⟨new, hentries, hloaded, hold, -⟩ := hgrows.entries_of_started hstart
  refine ⟨hgrows.withoutPending_of_started hstart, (key, .loaded m) :: new, ?_, ?_⟩
  · -- The module takes the place that the key was given when the load began.
    have hinsert := insertEntry_append hold (LoadEntry.loaded m) ((key, .loading) :: new)
    rw [insertEntry, if_pos rfl] at hinsert
    rw [← hinsert, ← hentries]
    rfl
  · intro entry hentry
    rcases List.mem_cons.1 hentry with rfl | hentry
    · exact ⟨m, rfl⟩
    · exact hloaded entry hentry

/-- A load that fails leaves the modules loaded on the way. -/
theorem Grows.abort : r.Grows (t.abort key) := by
  obtain ⟨new, hentries, hloaded, hold, hnew⟩ := hgrows.entries_of_started hstart
  refine ⟨hgrows.withoutPending_of_started hstart, new, ?_, hloaded⟩
  calc (t.abort key).entries.entries
      = t.entries.entries.filter fun entry => entry.1 != key := rfl
    _ = r.entries.entries ++ new := by
      rw [hentries, List.filter_append, filter_ne_eq_self hold, List.filter_cons,
        filter_ne_eq_self hnew]
      simp

end Ends

end ScriptLang.Registry
