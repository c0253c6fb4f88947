import ScriptLang.Module.Basic

/-!
# The store

All scopes and modules of a session, and how many functions and classes it has made. A scope holds
bindings and names the scope around it; what is not bound in a scope is looked up outwards. Nothing is
ever removed, so a scope lives as long as a function that sees it may be called.

## Main definitions

* `Store`: scopes and modules, by number
* `Store.owner?`: the innermost scope on a chain that binds a name
* `Store.lookup?`, `Store.define`, `Store.assignBound`: read, bind here, and rebind where bound

## Main results

* `Store.lookup?_eq_bind_owner?`: what is found is the binding of the owner
* `Store.assign_eq_define`: an assignment binds the name in its owner, or else in the scope itself
* `Store.module?_addModule`, `Store.module?_of_prefix`: a module that is added is found, and stays so
-/

namespace ScriptLang

/-- Bindings, and the scope around them. -/
structure Scope where
  parent : Option ScopeId
  bindings : Table Value

instance : Inhabited Scope := ⟨⟨none, Table.empty⟩⟩

/-- The scopes and modules of a session. -/
structure Store where
  scopes : Array Scope := #[]
  modules : Array Module := #[]
  /-- How many functions and classes have been made. -/
  objects : Nat := 0

namespace Store

instance : Inhabited Store := ⟨{}⟩

/-- The scope with a number. -/
def scope? (s : Store) (id : ScopeId) : Option Scope := s.scopes[id]?

/-- The bindings of a scope. -/
def bindings (s : Store) (id : ScopeId) : Table Value :=
  match s.scope? id with
  | some scope => scope.bindings
  | none => Table.empty

/-- The scope around a scope. A scope is made after the one around it, and so has a greater number. -/
def parent? (s : Store) (id : ScopeId) : Option { p : ScopeId // p < id } :=
  match s.scope? id with
  | some ⟨some p, _⟩ => if h : p < id then some ⟨p, h⟩ else none
  | _ => none

/-- The innermost scope that binds a name, from a scope outwards. -/
def owner? (s : Store) (id : ScopeId) (name : String) : Option ScopeId :=
  if (s.bindings id).contains name then some id
  else
    match s.parent? id with
    | some ⟨p, _⟩ => s.owner? p name
    | none => none
termination_by id

/-- The value of a name, from a scope outwards. -/
def lookup? (s : Store) (id : ScopeId) (name : String) : Option Value :=
  match (s.bindings id).get? name with
  | some v => some v
  | none =>
    match s.parent? id with
    | some ⟨p, _⟩ => s.lookup? p name
    | none => none
termination_by id

/-- Bind a name in a scope, or rebind it there. -/
def define (s : Store) (id : ScopeId) (name : String) (v : Value) : Store :=
  { s with scopes := s.scopes.modify id fun scope =>
      { scope with bindings := scope.bindings.insert name v } }

/-- Rebind a name where it is bound, from a scope outwards. Where it is bound nowhere, the value is
handed back. -/
def assignBound (s : Store) (id : ScopeId) (name : String) (v : Value) : Except Value Store :=
  if (s.bindings id).contains name then .ok (s.define id name v)
  else
    match s.parent? id with
    | some ⟨p, _⟩ => s.assignBound p name v
    | none => .error v
termination_by id

/-- Rebind a name where it is bound, or bind it in the scope. -/
def assign (s : Store) (id : ScopeId) (name : String) (v : Value) : Store :=
  match s.assignBound id name v with
  | .ok s' => s'
  | .error v => s.define id name v

/-- A new scope with some bindings. -/
def newScope (s : Store) (parent : Option ScopeId) (bindings : Table Value) : ScopeId × Store :=
  (s.scopes.size, { s with scopes := s.scopes.push ⟨parent, bindings⟩ })

/-- A number for a new function or class. -/
def newObject (s : Store) : ObjectId × Store := (s.objects, { s with objects := s.objects + 1 })

/-- Keep a module. -/
def addModule (s : Store) (m : Module) : ModuleRef × Store :=
  (⟨s.modules.size, m.name⟩, { s with modules := s.modules.push m })

/-- The module that a value refers to. -/
def module? (s : Store) (m : ModuleRef) : Option Module := s.modules[m.id]?

/-- The owner of a name binds it. -/
theorem contains_of_owner? {s : Store} {id owner : ScopeId} {name : String}
    (h : s.owner? id name = some owner) : (s.bindings owner).contains name = true := by
  fun_induction owner? s id name with
  | case1 id hbound =>
    cases h
    exact hbound
  | case2 id _ p hp _ ih => exact ih h
  | case3 => cases h

theorem lookup?_eq_bind_owner? (s : Store) (id : ScopeId) (name : String) :
    s.lookup? id name = (s.owner? id name).bind fun owner => (s.bindings owner).get? name := by
  fun_induction owner? s id name with
  | case1 id h =>
    rw [lookup?]
    rw [Table.contains, Option.isSome_iff_exists] at h
    obtain ⟨v, hv⟩ := h
    simp [hv]
  | case2 id h p hp hparent ih =>
    rw [lookup?]
    have hnone : (s.bindings id).get? name = none := by
      simpa [Table.contains] using h
    simp [hnone, hparent, ih]
  | case3 id h hparent =>
    rw [lookup?]
    have hnone : (s.bindings id).get? name = none := by
      simpa [Table.contains] using h
    simp [hnone, hparent]

theorem assignBound_eq (s : Store) (id : ScopeId) (name : String) (v : Value) :
    s.assignBound id name v =
      match s.owner? id name with
      | some owner => .ok (s.define owner name v)
      | none => .error v := by
  fun_induction owner? s id name with
  | case1 id h => rw [assignBound, if_pos h]
  | case2 id h p hp hparent ih =>
    rw [assignBound, if_neg h, hparent]
    exact ih
  | case3 id h hparent => rw [assignBound, if_neg h, hparent]

theorem assign_eq_define (s : Store) (id : ScopeId) (name : String) (v : Value) :
    s.assign id name v = s.define ((s.owner? id name).getD id) name v := by
  rw [assign, assignBound_eq]
  cases s.owner? id name <;> rfl

/-- An assignment is about scopes only. -/
theorem modules_assign (s : Store) (id : ScopeId) (name : String) (v : Value) :
    (s.assign id name v).modules = s.modules := by
  rw [assign_eq_define]
  rfl

/-- A module that is added is found. -/
theorem module?_addModule (s : Store) (m : Module) :
    (s.addModule m).2.module? (s.addModule m).1 = some m :=
  Array.getElem?_push_size

/-- The modules that were there stay in front. -/
theorem prefix_addModule (s : Store) (m : Module) :
    s.modules.toList <+: (s.addModule m).2.modules.toList := by
  change _ <+: (s.modules.push m).toList
  rw [Array.toList_push]
  exact List.prefix_append _ _

/-- A store with the same modules in front finds them. -/
theorem module?_of_prefix {s t : Store} (h : s.modules.toList <+: t.modules.toList) {ref : ModuleRef}
    {m : Module} (href : s.module? ref = some m) : t.module? ref = some m := by
  obtain ⟨new, hnew⟩ := h
  rw [module?, ← Array.getElem?_toList] at href ⊢
  rw [← hnew, List.getElem?_append_left (List.getElem?_eq_some_iff.1 href).1, href]

end Store

end ScriptLang
