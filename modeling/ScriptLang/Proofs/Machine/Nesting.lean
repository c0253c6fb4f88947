import Mathlib.Logic.Relation
import Mathlib.Order.WellFounded
import ScriptLang.Machine.Store

/-!
# Scopes in scopes

A scope names the one around it, and nothing but the order in which scopes are made keeps them from
lying in one another in a circle. Where every scope was made after the one around it, the way outwards
ends, and so does the search for a name along it.

The search of the store leaves a scope only for one that was made before. Where scopes are nested this
is no restriction, and the search goes all the way.

## Main definitions

* `Store.around?`: the scope that a scope names as the one around it
* `Store.IsNested`: every scope was made after the one around it
* `Store.Search`: the way from a scope outwards to the first one that binds a name
* `Store.Outwards`: the scopes on the way outwards

## Main results

* `Store.IsNested.wellFounded`: no way outwards goes on for ever
* `Store.IsNested.search`: the search of the store goes this way to its end
* `Store.IsNested.search_iff`: there is no other way
* `Store.around?_define`, `Store.around?_newScope`: what the operations do to the scopes around scopes
-/

namespace ScriptLang.Store

/-- The scope that a scope names as the one around it. -/
def around? (s : Store) (id : ScopeId) : Option ScopeId := (s.scope? id).bind Scope.parent

/-- Every scope was made after the one around it. -/
def IsNested (s : Store) : Prop := ∀ id p, s.around? id = some p → p < id

/-- The way from a scope outwards, to the first one that binds the name if there is any. -/
inductive Search (s : Store) (name : String) : ScopeId → Option ScopeId → Prop where
  | bound {id : ScopeId} : (s.bindings id).contains name = true → Search s name id (some id)
  | outwards {id p : ScopeId} {owner : Option ScopeId} : (s.bindings id).contains name = false →
    s.around? id = some p → Search s name p owner → Search s name id owner
  | unbound {id : ScopeId} : (s.bindings id).contains name = false → s.around? id = none →
    Search s name id none

variable {s : Store} {id : ScopeId}

theorem around?_eq_none (h : s.scopes.size ≤ id) : s.around? id = none := by
  rw [around?, scope?, Array.getElem?_eq_none h]
  rfl

/-- Only scopes that are there lie in others. -/
theorem lt_size_of_around? {p : ScopeId} (h : s.around? id = some p) : id < s.scopes.size := by
  by_contra hge
  rw [around?_eq_none (Nat.le_of_not_lt hge)] at h
  cases h

/-! ### Searching -/

namespace IsNested

variable (h : s.IsNested)
include h

/-- No way outwards goes on for ever. -/
theorem wellFounded : WellFounded fun p id => s.around? id = some p :=
  Subrelation.wf (fun hp => h _ _ hp) Nat.lt_wfRel.wf

/-- The parent that the store goes to is the scope around. -/
theorem parent?_eq (id : ScopeId) : (s.parent? id).map Subtype.val = s.around? id := by
  -- The store asks for a parent that was made before, and there is no other.
  have hid := h id
  rw [around?] at hid
  rw [parent?, around?]
  cases hscope : s.scope? id with
  | none => rfl
  | some scope =>
    obtain ⟨parent, bindings⟩ := scope
    cases parent with
    | none => rfl
    | some p =>
      rw [hscope] at hid
      simp [hid p rfl]

/-- The search of the store ends with the owner of the name, or with none when the way ends. -/
theorem search (id : ScopeId) (name : String) : s.Search name id (s.owner? id name) := by
  fun_induction owner? s id name with
  | case1 id hbound => exact .bound hbound
  | case2 id hfree p hp hparent ih =>
    have haround := h.parent?_eq id
    rw [hparent] at haround
    exact .outwards (Bool.eq_false_iff.2 hfree) haround.symm ih
  | case3 id hfree hparent =>
    have haround := h.parent?_eq id
    rw [hparent] at haround
    exact .unbound (Bool.eq_false_iff.2 hfree) haround.symm

/-- There is one way outwards, so the search ends in one way. -/
theorem search_iff {id : ScopeId} {name : String} {owner : Option ScopeId} :
    s.Search name id owner ↔ s.owner? id name = owner := by
  refine ⟨fun hsearch => ?_, fun howner => howner ▸ h.search id name⟩
  induction hsearch with
  | bound hbound => rw [owner?, if_pos hbound]
  | @outwards id p owner hfree haround _ ih =>
    have hparent := h.parent?_eq id
    rw [haround, Option.map_eq_some_iff] at hparent
    obtain ⟨⟨q, hq⟩, hparent, rfl⟩ := hparent
    rw [owner?, hfree, hparent]
    exact ih
  | @unbound id hfree haround =>
    have hparent := h.parent?_eq id
    rw [haround, Option.map_eq_none_iff] at hparent
    rw [owner?, hfree, hparent]
    rfl

end IsNested

/-! ### The scopes on the way -/

/-- The second scope is the first one, or lies around it. -/
def Outwards (s : Store) : ScopeId → ScopeId → Prop :=
  Relation.ReflTransGen fun id p => s.around? id = some p

section Outwards

variable {t : Store} {c : ScopeId}

/-- Which scopes are on the way depends on what lies around them only. -/
theorem outwards_congr (h : ∀ c, s.Outwards id c → t.around? c = s.around? c) :
    t.Outwards id c ↔ s.Outwards id c := by
  constructor
  · intro hc
    induction hc with
    | refl => exact .refl
    | tail _ haround ih => exact ih.tail ((h _ ih).symm.trans haround)
  · intro hc
    induction hc with
    | refl => exact .refl
    | tail hb haround ih => exact ih.tail ((h _ hb).trans haround)

/-- The owner of a name is on the way. -/
theorem IsNested.outwards_of_owner? (h : s.IsNested) {name : String}
    (hc : s.owner? id name = some c) : s.Outwards id c := by
  have hsearch := h.search id name
  rw [hc] at hsearch
  clear hc
  generalize howner : some c = owner at hsearch
  induction hsearch with
  | bound =>
    cases howner
    exact .refl
  | outwards _ haround _ ih => exact .head haround (ih howner)
  | unbound => cases howner

end Outwards

/-! ### What the operations do -/

@[simp] theorem around?_define (s : Store) (id : ScopeId) (name : String) (v : Value)
    (other : ScopeId) : (s.define id name v).around? other = s.around? other := by
  rw [around?, around?, scope?, scope?, define, Array.getElem?_modify]
  split
  · cases s.scopes[other]? <;> rfl
  · rfl

theorem around?_newScope (s : Store) (parent : Option ScopeId) (bindings : Table Value)
    (id : ScopeId) : (s.newScope parent bindings).2.around? id =
      if id = s.scopes.size then parent else s.around? id := by
  rw [around?, around?, scope?, scope?, newScope, Array.getElem?_push]
  by_cases heq : id = s.scopes.size
  · simp [heq]
  · simp [heq]

end ScriptLang.Store
