import ScriptLang.Proofs.Eval.Obedience
import ScriptLang.Proofs.Session.Request

/-!
# Names do not leak

Blocks, calls and modules bind names in scopes of their own. What they do to the scopes that were there
before is to rebind names where these are bound already; only the fields of objects can grow. So any
other scope keeps its outline: the names that it binds, in order, and the scope around it.

This is shown one scope at a time, by the discipline that code never runs in that scope.

## Main definitions

* `Scope.outline`, `Store.outline?`: a scope but for the values that it binds
* `Value.HasFieldsIn`: the objects that have their fields in a scope
* `Discipline.apart`: what code obeys that never runs in a scope

## Main results

* `Store.outline?_assign`: rebinding keeps the outline of every scope but the one it is done from
* `names_confined`: blocks, calls and loads keep the outline of every scope that is no object's fields
-/

namespace ScriptLang

/-- The scope around a scope, and the names that it binds, in order. -/
def Scope.outline (scope : Scope) : Option ScopeId × List String :=
  (scope.parent, scope.bindings.names)

namespace Store

variable {s : Store} {id other : ScopeId} {name : String} {v : Value}

/-- The outline of a scope. -/
def outline? (s : Store) (id : ScopeId) : Option (Option ScopeId × List String) :=
  (s.scope? id).map Scope.outline

/-- A name that is bound in a scope already keeps its place, and other scopes are not touched. -/
theorem outline?_define (h : id = other → (s.bindings id).contains name = true) :
    (s.define other name v).outline? id = s.outline? id := by
  rw [outline?, outline?, scope?, define, Array.getElem?_modify]
  split
  · next heq =>
    have hbound := h heq.symm
    rw [bindings] at hbound
    change Option.map _ (Option.map _ (s.scope? id)) = Option.map _ (s.scope? id)
    cases hscope : s.scope? id with
    | none => rfl
    | some scope =>
      rw [hscope, Table.contains, ← Table.mem_names_iff] at hbound
      simp only [Option.map_some, Scope.outline, Table.names_insert, if_pos hbound]
  · rfl

/-- Where a name is rebound it is bound, or else it is bound anew in the scope that it is rebound
from. -/
theorem outline?_assign (h : other ≠ id) : (s.assign other name v).outline? id = s.outline? id := by
  rw [assign_eq_define]
  refine outline?_define fun heq => ?_
  cases howner : s.owner? other name with
  | none =>
    rw [howner] at heq
    exact absurd heq.symm h
  | some owner =>
    rw [howner] at heq
    subst heq
    exact contains_of_owner? howner

/-- A new scope is none of those that were there before. -/
theorem newScope_apart (h : id < s.scopes.size) (parent : Option ScopeId) (bindings : Table Value) :
    let next := s.newScope parent bindings
    id < next.2.scopes.size ∧ next.2.outline? id = s.outline? id ∧ next.1 ≠ id := by
  refine ⟨?_, ?_, Nat.ne_of_gt h⟩
  · rw [newScope, Array.size_push]
    exact Nat.lt_succ_of_lt h
  · rw [outline?, outline?, scope?, scope?, newScope, Array.getElem?_push, if_neg (Nat.ne_of_lt h)]

end Store

/-! ### Code that stays out of a scope -/

/-- The value is the object that has its fields in the scope, or a method bound to it. -/
def Value.HasFieldsIn (id : ScopeId) : Value → Prop
  | .object i => i.fields = id
  | .method m => m.receiver.fields = id
  | _ => False

instance (id : ScopeId) : (v : Value) → Decidable (v.HasFieldsIn id)
  | .object i => decEq i.fields id
  | .method m => decEq m.receiver.fields id
  | .int _ | .float _ | .string _ | .bool _ | .nil | .function _ | .builtin _ | .ofClass _
  | .module _ => .isFalse fun h => h

/-- Code never runs in the scope, and no object that it holds has its fields there; so it keeps the
outline of the scope. -/
def Discipline.apart (id : ScopeId) : Discipline where
  State := Store
  store s := s
  Shape s := id < s.scopes.size
  Later s s' := s'.outline? id = s.outline? id
  Source _ := True
  Closure _ _ := True
  Fields _ i := i.fields ≠ id
  Open _ scope := scope ≠ id
  Runs _ scope _ := scope ≠ id
  refl _ := rfl
  trans h h' := h'.trans h
  closure_mono _ h := h
  fields_mono _ h := h
  open_mono _ h := h
  runs_mono _ h := h
  open_of_runs h := h
  runs_child h _ := h
  closure hshape _ _ := ⟨_, rfl, hshape, rfl, trivial⟩
  define hshape hruns _ :=
    ⟨_, rfl, by simpa using hshape, Store.outline?_define fun heq => absurd heq.symm hruns, trivial⟩
  assign {s id _ target _} v hshape hruns :=
    ⟨s.assign id target.name v, rfl, by simpa using hshape, Store.outline?_assign hruns, trivial⟩
  field v hshape _ hfields :=
    ⟨_, rfl, by simpa using hshape, Store.outline?_define fun heq => absurd heq.symm hfields, trivial⟩
  inner hshape _ :=
    have hnew := Store.newScope_apart hshape _ _
    ⟨_, rfl, hnew.1, hnew.2.1, hnew.2.2, fun _ _ => hnew.2.2⟩
  call args hshape _ _ := ⟨_, rfl, Store.newScope_apart hshape _ _⟩
  root hshape :=
    have hnew := Store.newScope_apart hshape _ _
    ⟨_, rfl, hnew.1, hnew.2.1, hnew.2.2, fun _ _ _ _ _ _ => hnew.2.2⟩
  fields _ hshape := ⟨_, rfl, Store.newScope_apart hshape _ _⟩
  newObject hshape := ⟨_, rfl, hshape, rfl, trivial⟩
  addModule _ hshape := ⟨_, rfl, hshape, rfl, trivial⟩

namespace Discipline

variable {id : ScopeId} {s : Store}

theorem value_apart {v : ScriptLang.Value} : (apart id).Value s v ↔ ¬v.HasFieldsIn id := by
  have hmethods (c : Class) : c.All ((apart id).Closure s) := fun _ _ _ => trivial
  cases v with
  | method m => exact ⟨fun h => h.2.fields, fun h => ⟨trivial, hmethods _, h⟩⟩
  | object i => exact ⟨fun h => h.fields, fun h => ⟨hmethods _, h⟩⟩
  | function f => exact ⟨fun _ h => h, fun _ => trivial⟩
  | ofClass c => exact ⟨fun _ h => h, fun _ => hmethods c⟩
  | _ => exact ⟨fun _ h => h, fun _ => trivial⟩

/-- What obeys keeps the outline of the scope. -/
theorem Ends.later {α : Type} {value : (apart id).State → α → Prop} {e : Eval α} {m : Machine}
    (h : (apart id).Ends s value (e m)) : (e.after m).store.outline? id = s.outline? id := by
  obtain ⟨s', hstore, hlater, -⟩ := h.after
  rw [← hstore]
  exact hlater

/-- A block runs in a scope of its own, so it may stand in any scope. -/
theorem runBlock_apart {host : Host} (hosts : (apart id).HostKeeps host) (scope : ScopeId)
    (body : Block) : (apart id).Keeps s (runBlock host scope body) (apart id).Completed := by
  obtain ⟨stmts, span⟩ := body
  have hinner : (apart id).Keeps s (innerScope scope) (apart id).Open := .withStore fun h =>
    h.next ⟨_, rfl, Store.newScope_apart h.shape (some scope) Table.empty⟩
      fun _ _ hs => hs.newScope .empty
  exact hinner.bind fun _ _ _ hopen => runStmts_keeps hosts stmts .nil (fun _ _ => hopen) value_nil

end Discipline

/-- **Names do not leak.** Whatever code a block, a call or a load runs, and however it ends: a scope
that was there before, and is not where an object has its fields, binds the same names in the same
order afterwards, and lies in the same scope. The objects are those in the store and those that are
handed over in the call. -/
theorem names_confined (setting : Setting) (frames : Nat) {m : Machine} {id : ScopeId}
    (hid : id < m.store.scopes.size) (hfree : m.store.Holds fun v => ¬v.HasFieldsIn id) :
    let host := Host.withFrames setting frames
    (∀ scope body,
      ((runBlock host scope body).after m).store.outline? id = m.store.outline? id) ∧
    (∀ callee args span, ¬callee.HasFieldsIn id → (∀ v ∈ args, ¬v.HasFieldsIn id) →
      ((host.call callee args span).after m).store.outline? id = m.store.outline? id) ∧
    ∀ name, ((host.load name).after m).store.outline? id = m.store.outline? id := by
  intro host
  have hfinds : (Discipline.apart id).Finds setting := fun _ _ _ => trivial
  have hosts := Discipline.withFrames_keeps hfinds frames
  have hfine : (Discipline.apart id).Fine m.store :=
    ⟨hid, hfree.mono fun _ => Discipline.value_apart.2⟩
  refine ⟨fun scope body => ?_, fun callee args span hcallee hargs => ?_, fun name => ?_⟩
  · exact (Discipline.runBlock_apart hosts scope body m rfl hfine).later
  · have hcallee' : (Discipline.apart id).Value m.store callee := Discipline.value_apart.2 hcallee
    have hargs' : (Discipline.apart id).Values m.store args :=
      fun v hv => Discipline.value_apart.2 (hargs v hv)
    exact (hosts.call hcallee' hargs' m rfl hfine).later
  · exact (hosts.load m rfl hfine).later

/-- A setting without modules. -/
def bareSetting : Setting := ⟨4, Library.resolve .empty⟩

/-- A class whose method sets a field, and an object of it, in a scope that was made for them. -/
def boxed : Machine :=
  Session.after [(bareSetting, .newRoot), (bareSetting, .evaluate
    ⟨"main", "clx Box \x7b fx put(self, v) \x7b self.v = v \x7d \x7d b = Box()"⟩ 0)]
    (Machine.start false)

/-- `y = b.put(1)`, between braces. -/
def putting : Block :=
  let span := Span.point Position.start
  .mk [.expr (.assignName span ⟨"y", span⟩
    (.call span (.member span (.name span "b") ⟨"put", span⟩) [.int span 1]))] span

/-- A block that binds a name and calls a method: the scope around it has neither the name nor the
field. That the fields of objects are left out is needed, since the object has got one. -/
theorem names_confined_put :
    let after := (runBlock (Host.withFrames bareSetting 4) 0 putting).after boxed
    (0 < boxed.store.scopes.size ∧ boxed.store.Holds fun v => ¬v.HasFieldsIn 0) ∧
      boxed.store.outline? 0 = some (none, ["Box", "b"]) ∧
      after.store.outline? 0 = boxed.store.outline? 0 ∧
      boxed.store.outline? 1 = some (none, []) ∧ after.store.outline? 1 = some (none, ["v"]) := by
  intro after
  have hscope : 0 < boxed.store.scopes.size := by decide +kernel
  have hfree : boxed.store.Holds fun v => ¬v.HasFieldsIn 0 :=
    .of_entries (by decide +kernel) (by decide +kernel)
  have hconfined := names_confined bareSetting 4 hscope hfree
  exact ⟨⟨hscope, hfree⟩, by decide +kernel, hconfined.1 0 putting, by decide +kernel,
    by decide +kernel⟩

end ScriptLang
