import ScriptLang.Proofs.Eval.Run
import ScriptLang.Proofs.Machine.Contents
import ScriptLang.Proofs.Machine.Nesting
import ScriptLang.Session

/-!
# Assignments

Scopes are shared: a name that is bound once can be seen from many scopes. To rebind it changes one
entry of one scope, the innermost one that binds the name, so what is seen differs exactly from where
the name leads to this entry.

## Main definitions

* `Store.Changes`: two stores that differ in the entries of one scope

## Main results

* `Store.Changes.of_define`: binding a name changes the entries of the scope that it is bound in
* `Store.owner?_define`: where the name is bound already, every name keeps its owner
* `Store.lookup?_define`: and only what leads to the entry is seen differently
* `assignment_changes_one_entry`: assignments, by the store and by running code
-/

namespace ScriptLang

/-! ### Entries -/

namespace Table

variable {α : Type} {t : Table α} {name : String}

/-- A name that is entered keeps its place, and the entries around it stay as they are. -/
theorem entries_insert_of_contains (h : t.contains name = true) (value : α) :
    ∃ front old back, t.entries = front ++ (name, old) :: back ∧
      (t.insert name value).entries = front ++ (name, value) :: back := by
  obtain ⟨old, hold⟩ := Option.isSome_iff_exists.1 h
  obtain ⟨front, back, hentries⟩ := List.append_of_mem (mem_of_findEntry hold)
  -- No name is entered twice, so the entry that is found is the one that is replaced.
  have hfront : name ∉ front.map Prod.fst := by
    intro hmem
    have hnodup := t.nodup
    rw [hentries, List.map_append, List.nodup_append] at hnodup
    exact hnodup.2.2 name hmem name List.mem_cons_self rfl
  refine ⟨front, old, back, hentries, ?_⟩
  change insertEntry name value t.entries = _
  rw [hentries, insertEntry_append hfront, insertEntry, if_pos rfl]

theorem entries_insert_of_not_contains (h : t.contains name = false) (value : α) :
    (t.insert name value).entries = t.entries ++ [(name, value)] := by
  have hnot : name ∉ t.entries.map Prod.fst := by
    rw [mem_map_fst_iff]
    exact Bool.eq_false_iff.1 h
  have happend := insertEntry_append hnot value []
  rw [List.append_nil] at happend
  exact happend

end Table

namespace Store

/-- The second store is the first one, but for the entries of one scope: these were `before`, and are
`after`. -/
structure Changes (s t : Store) (id : ScopeId) (before after : List (String × Value)) : Prop where
  scope : ∃ old new, s.scope? id = some old ∧ t.scope? id = some new ∧ new.parent = old.parent ∧
    old.bindings.entries = before ∧ new.bindings.entries = after
  others (other : ScopeId) : other ≠ id → t.scope? other = s.scope? other
  size : t.scopes.size = s.scopes.size
  modules : t.modules = s.modules
  objects : t.objects = s.objects

variable {s : Store} {id : ScopeId} {name : String} {v : Value}

/-! ### Binding a name -/

theorem scope?_define (s : Store) (id : ScopeId) (name : String) (v : Value) (other : ScopeId) :
    (s.define id name v).scope? other =
      if id = other then
        (s.scope? other).map fun scope => { scope with bindings := scope.bindings.insert name v }
      else s.scope? other :=
  Array.getElem?_modify

theorem bindings_of_scope? {scope : Scope} (h : s.scope? id = some scope) :
    s.bindings id = scope.bindings := by
  rw [bindings, h]

/-- A scope that binds a name is there. -/
theorem exists_scope?_of_contains (h : (s.bindings id).contains name = true) :
    ∃ scope, s.scope? id = some scope := by
  rw [← Option.isSome_iff_exists, Option.isSome_iff_ne_none]
  intro hnone
  rw [bindings, hnone] at h
  cases h

/-- The scopes stay where they are, and so does the way outwards. -/
theorem parent?_define (s : Store) (id : ScopeId) (name : String) (v : Value) (other : ScopeId) :
    (s.define id name v).parent? other = s.parent? other := by
  unfold parent?
  rw [scope?_define]
  by_cases heq : id = other
  · rw [if_pos heq]
    cases s.scope? other with
    | none => rfl
    | some scope =>
      obtain ⟨parent, bindings⟩ := scope
      cases parent <;> rfl
  · rw [if_neg heq]

theorem Changes.of_define {scope : Scope} (h : s.scope? id = some scope) (name : String)
    (v : Value) :
    s.Changes (s.define id name v) id scope.bindings.entries
      (scope.bindings.insert name v).entries where
  scope := by
    refine ⟨scope, { scope with bindings := scope.bindings.insert name v }, h, ?_, rfl, rfl, rfl⟩
    rw [scope?_define, if_pos rfl, h]
    rfl
  others other hother := by rw [scope?_define, if_neg (Ne.symm hother)]
  size := size_scopes_define
  modules := rfl
  objects := rfl

/-! ### Rebinding a name -/

section Rebind

variable (hbound : (s.bindings id).contains name = true)
include hbound

theorem get?_bindings_define (other : ScopeId) (other' : String) :
    ((s.define id name v).bindings other).get? other' =
      if id = other ∧ name = other' then some v else (s.bindings other).get? other' := by
  by_cases heq : id = other
  · subst heq
    obtain ⟨scope, hscope⟩ := exists_scope?_of_contains hbound
    have hnew : (s.define id name v).scope? id =
        some { scope with bindings := scope.bindings.insert name v } := by
      rw [scope?_define, if_pos rfl, hscope]
      rfl
    rw [bindings_of_scope? hnew, bindings_of_scope? hscope, Table.get?_insert]
    simp
  · have hsame : (s.define id name v).scope? other = s.scope? other := by
      rw [scope?_define, if_neg heq]
    rw [bindings, hsame, ← bindings, if_neg fun h => heq h.1]

/-- A name that was bound stays bound, and no other one is bound. -/
theorem contains_bindings_define (other : ScopeId) (other' : String) :
    ((s.define id name v).bindings other).contains other' =
      (s.bindings other).contains other' := by
  rw [Table.contains, get?_bindings_define hbound]
  split
  · next h =>
    obtain ⟨rfl, rfl⟩ := h
    exact hbound.symm
  · rfl

/-- Every name has the same owner as before, from wherever it is looked up. -/
theorem owner?_define (scope : ScopeId) (other : String) :
    (s.define id name v).owner? scope other = s.owner? scope other := by
  fun_induction owner? s scope other with
  | case1 scope h => rw [owner?, if_pos ((contains_bindings_define hbound _ _).trans h)]
  | case2 scope h p hp hparent ih =>
    rw [owner?, contains_bindings_define hbound, if_neg h, parent?_define, hparent]
    exact ih
  | case3 scope h hparent =>
    rw [owner?, contains_bindings_define hbound, if_neg h, parent?_define, hparent]

/-- The new value is seen from where the name leads to the scope; nothing else is seen differently. -/
theorem lookup?_define (scope : ScopeId) (other : String) :
    (s.define id name v).lookup? scope other =
      if name = other ∧ s.owner? scope other = some id then some v
      else s.lookup? scope other := by
  rw [lookup?_eq_bind_owner?, lookup?_eq_bind_owner?, owner?_define hbound]
  cases s.owner? scope other with
  | none => simp
  | some owner =>
    rw [Option.bind_some, Option.bind_some, get?_bindings_define hbound]
    simp only [Option.some.injEq, and_comm, eq_comm]

end Rebind

/-- A name has an owner if it has a value. -/
theorem isSome_lookup?_iff (scope : ScopeId) :
    (s.lookup? scope name).isSome = true ↔ ∃ owner, s.owner? scope name = some owner := by
  rw [lookup?_eq_bind_owner?]
  cases howner : s.owner? scope name with
  | none => simp
  | some owner =>
    have hbound := contains_of_owner? howner
    simpa [Table.contains] using hbound

/-- What rebinding a name changes. -/
theorem Changes.of_owner? {scope owner : ScopeId} (h : s.owner? scope name = some owner)
    (v : Value) :
    ∃ front old back,
      s.Changes (s.define owner name v) owner (front ++ (name, old) :: back)
        (front ++ (name, v) :: back) := by
  have hbound := contains_of_owner? h
  obtain ⟨found, hfound⟩ := exists_scope?_of_contains hbound
  rw [bindings_of_scope? hfound] at hbound
  obtain ⟨front, old, back, hbefore, hafter⟩ := Table.entries_insert_of_contains hbound v
  have hchanges := Changes.of_define hfound name v
  rw [hbefore, hafter] at hchanges
  exact ⟨front, old, back, hchanges⟩

/-- What binding a name changes that has no owner. -/
theorem Changes.of_owner?_eq_none (hid : id < s.scopes.size) (h : s.owner? id name = none)
    (v : Value) : ∃ entries, s.Changes (s.define id name v) id entries (entries ++ [(name, v)]) := by
  have hscope : s.scope? id = some s.scopes[id] := Array.getElem?_eq_getElem hid
  have hunbound : s.scopes[id].bindings.contains name = false := by
    rw [← bindings_of_scope? hscope, Bool.eq_false_iff]
    intro hbound
    rw [owner?, if_pos hbound] at h
    cases h
  have hchanges := Changes.of_define hscope name v
  rw [Table.entries_insert_of_not_contains hunbound] at hchanges
  exact ⟨_, hchanges⟩

end Store

/-! ### Assignments -/

/-- A name without a value cannot be rebound, and nothing is done. -/
theorem Session.rebind_of_owner?_eq_none {scope : ScopeId} {name : String} {m : Machine}
    (h : m.store.owner? scope name = none) (v : Value) (span : Span) :
    Session.rebind scope name v span m = .error ((Fault.undefined name).at span) m := by
  have hread : Eval.readStore (·.assignBound scope name v) m = .ok (.error v) m := by
    change EStateM.Result.ok (m.store.assignBound scope name v) m = _
    rw [Store.assignBound_eq, h]
  rw [Session.rebind, Eval.bind_eq, hread]
  rfl

/-- Once the value is there, all that is left to do is to bind it. -/
theorem evalExpr_assignName {host : Host} {scope : ScopeId} {span : Span} {target : Ident}
    {value : Expr} {v : Value} {m m' : Machine} (h : evalExpr host scope value m = .ok v m') :
    evalExpr host scope (.assignName span target value) m =
      .ok v { m' with store := m'.store.assign scope target.name v } := by
  rw [evalExpr, Eval.bind_eq, h]
  rfl

/-- **An assignment changes one entry.** Let every scope be made after the one around it, as all are
that a session makes. A name can be rebound exactly if it has a value. Then the innermost scope that
binds it gets the new value in the place of the old one, and nothing else in the store is different.
From the scope that the name was rebound from it has the new value; any name has the value that it had
before, from any scope, unless it is this name and leads to the same scope. If the name has no value,
the new one is handed back, and code that wanted it rebound ends as it began. An assignment that
evaluates its value does not fail: it rebinds the name, or binds it after all others in the scope that
it is done in. -/
theorem assignment_changes_one_entry {s : Store} (hnested : s.IsNested) (scope : ScopeId)
    (name : String) (v : Value) :
    ((∃ t, s.assignBound scope name v = .ok t) ↔ (s.lookup? scope name).isSome = true) ∧
    (∀ t, s.assignBound scope name v = .ok t → ∃ owner front old back,
      s.Search name scope (some owner) ∧
      s.Changes t owner (front ++ (name, old) :: back) (front ++ (name, v) :: back) ∧
      t.lookup? scope name = some v ∧
      ∀ from' other, t.lookup? from' other = s.lookup? from' other ∨
        other = name ∧ s.Search name from' (some owner)) ∧
    (∀ w, s.assignBound scope name v = .error w → w = v ∧
      ∀ (m : Machine) (span : Span), m.store = s →
        Session.rebind scope name v span m = .error ((Fault.undefined name).at span) m) ∧
    ∀ (host : Host) (span : Span) (target : Ident) (value : Expr) (m m' : Machine),
      target.name = name → m'.store = s → scope < s.scopes.size →
      evalExpr host scope value m = .ok v m' →
      ∃ t, evalExpr host scope (.assignName span target value) m = .ok v { m' with store := t } ∧
        ((∃ owner front old back, s.Search name scope (some owner) ∧
            s.Changes t owner (front ++ (name, old) :: back) (front ++ (name, v) :: back)) ∨
          s.Search name scope none ∧
            ∃ entries, s.Changes t scope entries (entries ++ [(name, v)])) := by
  have hsearch := hnested.search scope name
  rw [Store.isSome_lookup?_iff, Store.assignBound_eq]
  cases howner : s.owner? scope name with
  | some owner =>
    rw [howner] at hsearch
    have hbound := Store.contains_of_owner? howner
    obtain ⟨front, old, back, hchanges⟩ := Store.Changes.of_owner? howner v
    refine ⟨⟨fun _ => ⟨owner, rfl⟩, fun _ => ⟨_, rfl⟩⟩, ?_, ?_, ?_⟩
    · rintro _ ⟨⟩
      refine ⟨owner, front, old, back, hsearch, hchanges, ?_, fun from' other => ?_⟩
      · rw [Store.lookup?_define hbound, if_pos ⟨rfl, howner⟩]
      · rw [Store.lookup?_define hbound]
        split
        · next h =>
          have hfrom := hnested.search from' name
          rw [h.1, h.2, ← h.1] at hfrom
          exact .inr ⟨h.1.symm, hfrom⟩
        · exact .inl rfl
    · rintro _ ⟨⟩
    · intro host span target value m m' htarget hstore _ hvalue
      refine ⟨_, evalExpr_assignName hvalue, .inl ⟨owner, front, old, back, hsearch, ?_⟩⟩
      rw [hstore, htarget, Store.assign_eq_define, howner]
      exact hchanges
  | none =>
    rw [howner] at hsearch
    refine ⟨?_, ?_, ?_, ?_⟩
    · simp
    · rintro _ ⟨⟩
    · rintro _ ⟨⟩
      refine ⟨rfl, fun m span hstore => ?_⟩
      exact Session.rebind_of_owner?_eq_none (hstore ▸ howner) v span
    · intro host span target value m m' htarget hstore hscope hvalue
      obtain ⟨entries, hchanges⟩ := Store.Changes.of_owner?_eq_none hscope howner v
      refine ⟨_, evalExpr_assignName hvalue, .inr ⟨hsearch, entries, ?_⟩⟩
      rw [hstore, htarget, Store.assign_eq_define, howner]
      exact hchanges

/-- A scope that binds two names, and two scopes in it. One of these binds the first name as well, and
has a scope in it. -/
def layered : Machine where
  store.scopes := #[⟨none, Table.ofList [("x", .int 1), ("y", .int 2)]⟩,
    ⟨some 0, Table.ofList [("x", .int 3)]⟩, ⟨some 1, Table.empty⟩, ⟨some 0, Table.empty⟩]
  output := default

theorem isNested_layered : layered.store.IsNested := by
  intro id p h
  have hlt : id < 4 := Store.lt_size_of_around? h
  match id, hlt, h with
  | 0, _, h => cases h
  | 1, _, h => cases h; decide
  | 2, _, h => cases h; decide
  | 3, _, h => cases h; decide

/-- From the innermost scope the nearer `x` is rebound, so the scope beside sees the `x` further out as
it was. A name that is bound nowhere is bound where the code runs. -/
theorem assignment_changes_one_entry_layered :
    let host := Host.withFrames ⟨4, fun name => .error ((Fault.undefined name).report)⟩ 4
    layered.store.IsNested ∧
      (∃ t, layered.store.assignBound 2 "x" (.int 5) = .ok t ∧ t.lookup? 2 "x" = some (.int 5) ∧
        layered.store.Changes t 1 [("x", .int 3)] [("x", .int 5)] ∧
        t.lookup? 3 "x" = layered.store.lookup? 3 "x") ∧
      ∃ t, evalExpr host 3 (.assignName default ⟨"z", default⟩ (.int default 5)) layered =
          .ok (.int 5) { layered with store := t } ∧
        layered.store.Changes t 3 [] [("z", .int 5)] := by
  intro host
  have hnested := isNested_layered
  obtain ⟨hbound, hok, -, -⟩ := assignment_changes_one_entry hnested 2 "x" (.int 5)
  obtain ⟨-, -, -, heval⟩ := assignment_changes_one_entry hnested 3 "z" (.int 5)
  refine ⟨hnested, ?_, ?_⟩
  · obtain ⟨t, ht⟩ := hbound.2 (by decide +kernel)
    obtain ⟨owner, front, old, back, hsearch, hchanges, hvalue, hframe⟩ := hok t ht
    have howner : layered.store.owner? 2 "x" = some 1 := by decide +kernel
    rw [hnested.search_iff, howner] at hsearch
    cases hsearch
    obtain ⟨_, _, hscope, -, -, hbefore, -⟩ := hchanges.scope
    cases hscope
    -- The scope has one entry, so there is nothing around the one that is replaced.
    have hone : [("x", Value.int 3)] = front ++ ("x", old) :: back := hbefore
    rw [List.singleton_eq_append_iff] at hone
    obtain ⟨rfl, hentry⟩ | ⟨-, habsurd⟩ := hone
    · cases hentry
      refine ⟨t, ht, hvalue, hchanges, (hframe 3 "x").resolve_right fun h => ?_⟩
      have hbeside : layered.store.owner? 3 "x" = some 0 := by decide +kernel
      rw [hnested.search_iff, hbeside] at h
      cases h.2
    · cases habsurd
  · obtain ⟨t, ht, hchanges⟩ := heval host default ⟨"z", default⟩ (.int default 5) layered layered rfl
      rfl (by decide) rfl
    have howner : layered.store.owner? 3 "z" = none := by decide +kernel
    simp only [hnested.search_iff, howner] at hchanges
    obtain ⟨_, _, _, _, habsurd, -⟩ | ⟨-, entries, hchanges⟩ := hchanges
    · cases habsurd
    · obtain ⟨_, _, hscope, -, -, hbefore, -⟩ := hchanges.scope
      cases hscope
      cases hbefore
      exact ⟨t, ht, hchanges⟩

end ScriptLang
