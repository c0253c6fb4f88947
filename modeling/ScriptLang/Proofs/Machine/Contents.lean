import ScriptLang.Eval.Call
import ScriptLang.Proofs.Value.Outcome

/-!
# The values and functions in a store

What every value in a store has in common is kept by the operations of the store, as long as the values
that are entered have it too. Functions are values, and values hold functions: a class its methods, a
bound method and an object their class.

## Main definitions

* `Store.Holds`: every value in a store has a property
* `Value.All`, `Store.All`: so does every function that a value holds, and every function in a store

## Main results

* `Store.Holds.define`, `Store.Holds.assign`, `Store.Holds.newScope`, `Store.Holds.addModule`: the
  operations keep the property
* `Store.Holds.lookup?`: what is found has it
-/

namespace ScriptLang

/-! ### Tables -/

namespace Table

variable {α : Type} {P : α → Prop} {t : Table α}

/-- Every entry has the property. -/
def All (P : α → Prop) (t : Table α) : Prop := ∀ name a, t.get? name = some a → P a

theorem All.empty : (Table.empty : Table α).All P := by
  intro name a h
  rw [get?_empty] at h
  cases h

theorem All.insert (h : t.All P) {name : String} {a : α} (ha : P a) : (t.insert name a).All P := by
  intro n b hb
  rw [get?_insert] at hb
  split at hb
  · cases hb
    exact ha
  · exact h n b hb

theorem All.of_entries (h : ∀ entry ∈ t.entries, P entry.2) : t.All P :=
  fun _ _ hfound => h _ (mem_of_findEntry hfound)

theorem All.ofList {entries : List (String × α)} (h : ∀ entry ∈ entries, P entry.2) :
    (Table.ofList entries).All P := by
  rw [Table.ofList]
  have hempty : (Table.empty : Table α).All P := .empty
  generalize Table.empty = t at hempty ⊢
  induction entries generalizing t with
  | nil => exact hempty
  | cons entry entries ih =>
    rw [List.forall_mem_cons] at h
    exact ih h.2 _ (hempty.insert h.1)

/-- Entries with different names are entered one after the other. -/
theorem entries_ofList {entries : List (String × α)} (h : (entries.map Prod.fst).Nodup) :
    (Table.ofList entries).entries = entries := by
  have hfold (t : Table α) (hnew : ∀ entry ∈ entries, entry.1 ∉ t.names) :
      (entries.foldl (fun t entry => t.insert entry.1 entry.2) t).entries = t.entries ++ entries := by
    induction entries generalizing t with
    | nil => simp
    | cons entry entries ih =>
      obtain ⟨hfirst, hnodup⟩ := List.nodup_cons.1 h
      obtain ⟨hentry, hrest⟩ := List.forall_mem_cons.1 hnew
      have hinsert : (t.insert entry.1 entry.2).entries = t.entries ++ [entry] := by
        have happend := insertEntry_append hentry entry.2 []
        rwa [List.append_nil] at happend
      have hlater : ∀ other ∈ entries, other.1 ∉ (t.insert entry.1 entry.2).names := by
        intro other hother
        rw [names_insert, if_neg hentry, List.mem_append, List.mem_singleton, not_or]
        refine ⟨hrest other hother, fun heq => hfirst ?_⟩
        rw [← heq]
        exact List.mem_map_of_mem hother
      rw [List.foldl_cons, ih hnodup _ hlater, hinsert, List.append_assoc, List.singleton_append]
  exact hfold empty (by simp)

/-- Parameters are bound in order, if no two have the same name. -/
theorem entries_bindParams {params : List Ident} {args : List Value}
    (hnodup : (params.map Ident.name).Nodup) (hlength : args.length = params.length) :
    (bindParams params args).entries = (params.map Ident.name).zip args := by
  have hnames : ((params.map Ident.name).zip args).map Prod.fst = params.map Ident.name :=
    List.map_fst_zip (by simp [hlength])
  rw [bindParams, entries_ofList (by rwa [hnames])]

theorem names_bindParams {params : List Ident} {args : List Value}
    (hnodup : (params.map Ident.name).Nodup) (hlength : args.length = params.length) :
    (bindParams params args).names = params.map Ident.name := by
  rw [names, entries_bindParams hnodup hlength, List.map_fst_zip (by simp [hlength])]

/-- Parameters are bound to the arguments. -/
theorem All.bindParams {P : Value → Prop} {params : List Ident} {args : List Value}
    (h : ∀ v ∈ args, P v) : (bindParams params args).All P :=
  .ofList fun _ hentry => h _ (List.of_mem_zip hentry).2

end Table

/-! ### Values -/

variable {P : Closure → Prop}

/-- Every method of the class has the property. -/
def Class.All (P : Closure → Prop) (c : Class) : Prop := c.methods.All P

/-- Every function that the value holds has the property. -/
def Value.All (P : Closure → Prop) : Value → Prop
  | function f => P f
  | method m => P m.method ∧ m.receiver.ofClass.All P
  | ofClass c => c.All P
  | object i => i.ofClass.All P
  | int _ | float _ | string _ | bool _ | nil | builtin _ | module _ => True

theorem Value.all_of_isData {v : Value} (h : v.isData = true) : v.All P := by
  cases v with
  | function | method | ofClass | object => cases h
  | _ => trivial

theorem Value.All.of_forall (h : ∀ f, P f) (v : Value) : v.All P := by
  cases v with
  | function f => exact h f
  | method m => exact ⟨h _, fun _ f _ => h f⟩
  | ofClass c => exact fun _ f _ => h f
  | object i => exact fun _ f _ => h f
  | _ => trivial

section Mono

variable {P Q : Closure → Prop} (hPQ : ∀ f, P f → Q f)
include hPQ

theorem Class.All.mono {c : Class} (h : c.All P) : c.All Q := fun name f hf => hPQ f (h name f hf)

theorem Value.All.mono {v : Value} (h : v.All P) : v.All Q := by
  cases v with
  | function f => exact hPQ f h
  | method m => exact ⟨hPQ _ h.1, Class.All.mono hPQ h.2⟩
  | ofClass c => exact Class.All.mono hPQ h
  | object i => exact Class.All.mono hPQ h
  | _ => trivial

end Mono

/-! ### Stores -/

/-- Every value in a scope or a module of the store has the property. -/
structure Store.Holds (P : Value → Prop) (s : Store) : Prop where
  bindings (id : ScopeId) : (s.bindings id).All P
  members (ref : ModuleRef) (module : Module) : s.module? ref = some module → module.members.All P

/-- Every function in a scope or a module of the store has the property. -/
structure Store.All (P : Closure → Prop) (s : Store) : Prop where
  bindings (id : ScopeId) : (s.bindings id).All (Value.All P)
  members (ref : ModuleRef) (module : Module) : s.module? ref = some module →
    module.members.All (Value.All P)

namespace Store

variable {s : Store} {id : ScopeId} {name : String} {v : Value}

@[simp] theorem size_scopes_define : (s.define id name v).scopes.size = s.scopes.size :=
  Array.size_modify

@[simp] theorem size_scopes_assign : (s.assign id name v).scopes.size = s.scopes.size := by
  rw [assign_eq_define, size_scopes_define]

theorem bindings_define (s : Store) (id : ScopeId) (name : String) (v : Value) (other : ScopeId) :
    (s.define id name v).bindings other = (s.bindings other).insert name v ∨
      (s.define id name v).bindings other = s.bindings other := by
  unfold bindings scope? define
  rw [Array.getElem?_modify]
  cases hscope : s.scopes[other]? with
  | none => simp
  | some scope =>
    by_cases heq : id = other
    · simp [heq]
    · simp [heq]

theorem bindings_newScope (s : Store) (parent : Option ScopeId) (bindings : Table Value)
    (id : ScopeId) : (s.newScope parent bindings).2.bindings id =
      if id = s.scopes.size then bindings else s.bindings id := by
  unfold Store.bindings scope? newScope
  rw [Array.getElem?_push]
  by_cases heq : id = s.scopes.size
  · simp [heq]
  · simp [heq]

namespace Holds

variable {P Q : Value → Prop}

theorem mono (hPQ : ∀ v, P v → Q v) (h : s.Holds P) : s.Holds Q where
  bindings id name v hv := hPQ v (h.bindings id name v hv)
  members ref module hmodule name v hv := hPQ v (h.members ref module hmodule name v hv)

theorem of_forall (h : ∀ v, P v) : s.Holds P where
  bindings _ _ v _ := h v
  members _ _ _ _ v _ := h v

theorem empty : (default : Store).Holds P where
  bindings id := .empty
  members ref module h := by cases h

/-- A store holds what is entered in its scopes and modules. -/
theorem of_entries (hscopes : ∀ scope ∈ s.scopes, ∀ entry ∈ scope.bindings.entries, P entry.2)
    (hmodules : ∀ module ∈ s.modules, ∀ entry ∈ module.members.entries, P entry.2) :
    s.Holds P where
  bindings id := by
    unfold Store.bindings
    split
    · next scope hscope => exact .of_entries (hscopes scope (Array.mem_of_getElem? hscope))
    · exact .empty
  members _ module hmodule := .of_entries (hmodules module (Array.mem_of_getElem? hmodule))

theorem define (h : s.Holds P) (hv : P v) : (s.define id name v).Holds P where
  bindings other := by
    rcases bindings_define s id name v other with heq | heq
    · rw [heq]
      exact (h.bindings other).insert hv
    · rw [heq]
      exact h.bindings other
  members := h.members

theorem assign (h : s.Holds P) (hv : P v) : (s.assign id name v).Holds P := by
  rw [assign_eq_define]
  exact h.define hv

theorem newScope {parent : Option ScopeId} {bindings : Table Value} (h : s.Holds P)
    (hbindings : bindings.All P) : (s.newScope parent bindings).2.Holds P where
  bindings id := by
    rw [bindings_newScope]
    split
    · exact hbindings
    · exact h.bindings id
  members := h.members

theorem newObject (h : s.Holds P) : s.newObject.2.Holds P := ⟨h.bindings, h.members⟩

theorem addModule {module : Module} (h : s.Holds P) (hmodule : module.members.All P) :
    (s.addModule module).2.Holds P where
  bindings := h.bindings
  members ref other hother := by
    change (s.modules.push module)[ref.id]? = some other at hother
    rw [Array.getElem?_push] at hother
    split at hother
    · cases hother
      exact hmodule
    · exact h.members ref other hother

theorem lookup? (h : s.Holds P) (hv : s.lookup? id name = some v) : P v := by
  rw [lookup?_eq_bind_owner?] at hv
  obtain ⟨owner, -, hfound⟩ := Option.bind_eq_some_iff.1 hv
  exact h.bindings owner name v hfound

end Holds

namespace All

/-- Every function in a store has a property if every value has that of holding such functions. -/
theorem iff_holds : s.All P ↔ s.Holds (Value.All P) :=
  ⟨fun h => ⟨h.bindings, h.members⟩, fun h => ⟨h.bindings, h.members⟩⟩

theorem of_forall (h : ∀ f, P f) : s.All P := iff_holds.2 (.of_forall (.of_forall h))

theorem mono {Q : Closure → Prop} (hPQ : ∀ f, P f → Q f) (h : s.All P) : s.All Q :=
  iff_holds.2 ((iff_holds.1 h).mono fun _ => Value.All.mono hPQ)

theorem empty : (default : Store).All P := iff_holds.2 .empty

theorem define (h : s.All P) (hv : v.All P) : (s.define id name v).All P :=
  iff_holds.2 ((iff_holds.1 h).define hv)

theorem assign (h : s.All P) (hv : v.All P) : (s.assign id name v).All P :=
  iff_holds.2 ((iff_holds.1 h).assign hv)

theorem newScope {parent : Option ScopeId} {bindings : Table Value} (h : s.All P)
    (hbindings : bindings.All (Value.All P)) : (s.newScope parent bindings).2.All P :=
  iff_holds.2 ((iff_holds.1 h).newScope hbindings)

theorem newObject (h : s.All P) : s.newObject.2.All P := ⟨h.bindings, h.members⟩

theorem addModule {module : Module} (h : s.All P) (hmodule : module.members.All (Value.All P)) :
    (s.addModule module).2.All P :=
  iff_holds.2 ((iff_holds.1 h).addModule hmodule)

theorem lookup? (h : s.All P) (hv : s.lookup? id name = some v) : v.All P :=
  (iff_holds.1 h).lookup? hv

end All

end Store

end ScriptLang
