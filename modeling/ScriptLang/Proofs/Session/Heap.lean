import Mathlib.Logic.Function.Basic
import ScriptLang.Proofs.Machine.Nesting
import ScriptLang.Proofs.Session.Dialogue

/-!
# The heap of scopes

Functions see scopes, scopes bind functions, and an object can hold itself, so values and scopes form
graphs of every shape. What is in order about them is how scopes lie in one another: each in one that
was made before. The fields of an object are kept in a scope too, which lies in no other; nothing lies
in it, no function sees it, and it belongs to no other object.

The store alone does not tell the scope of an object from that of a module. A census does, and tells
also which function has got which number; it is kept from the first request on.

## Main definitions

* `Census`: a store with the functions and the objects that have been made
* `Census.Sound`, `Census.Before`: a census in order, and how it may go on
* `Discipline.census`: what is made is counted, and code runs in no scope of an object
* `Dialogue.InOrder`: the scopes of the store and the values that have come up are in order
* `Dialogue.Precedes`: what is there is there later as well, as it is

## Main results

* `Census.Sound.newScope`, `Census.Sound.newFunction`: a census goes on with what is made
* `Dialogue.inOrder_of_knows`, `Dialogue.precedes_of_knows`: what a census tells of a dialogue
* `Dialogue.heap_inOrder`: in every dialogue the heap is in order
-/

namespace ScriptLang

/-- A store, the function with each number, and the class of the object that has its fields in each
scope. -/
structure Census where
  store : Store
  functions : ObjectId → Option Closure
  objects : ScopeId → Option Class

namespace Census

/-- The scope is there, and no object has its fields in it. -/
structure Open (w : Census) (id : ScopeId) : Prop where
  lt_size : id < w.store.scopes.size
  objects : w.objects id = none

/-- Scopes are nested, in scopes that are no object's; those of objects lie in no other. Only numbers
that have been given away are those of functions. -/
structure Sound (w : Census) : Prop where
  nested : w.store.IsNested
  around {id p : ScopeId} : w.store.around? id = some p → w.objects p = none
  fields {id : ScopeId} {c : Class} : w.objects id = some c →
    id < w.store.scopes.size ∧ w.store.around? id = none
  functions {n : ObjectId} {f : Closure} : w.functions n = some f → n < w.store.objects

/-- What has been counted stays counted, and scopes stay where they are. -/
structure Before (w w' : Census) : Prop where
  size : w.store.scopes.size ≤ w'.store.scopes.size
  around {id : ScopeId} : id < w.store.scopes.size → w'.store.around? id = w.store.around? id
  objects {id : ScopeId} : id < w.store.scopes.size → w'.objects id = w.objects id
  functions {n : ObjectId} {f : Closure} : w.functions n = some f → w'.functions n = some f

theorem Before.refl (w : Census) : w.Before w := ⟨Nat.le_refl _, fun _ => rfl, fun _ => rfl, id⟩

theorem Before.trans {w w' w'' : Census} (h : w.Before w') (h' : w'.Before w'') : w.Before w'' where
  size := h.size.trans h'.size
  around hid := (h'.around (hid.trans_le h.size)).trans (h.around hid)
  objects hid := (h'.objects (hid.trans_le h.size)).trans (h.objects hid)
  functions hf := h'.functions (h.functions hf)

theorem Open.mono {w w' : Census} {id : ScopeId} (h : w.Open id) (hw : w.Before w') : w'.Open id where
  lt_size := h.lt_size.trans_le hw.size
  objects := (hw.objects h.lt_size).trans h.objects

end Census

/-- Where everything that is made is counted. -/
def World.census : World where
  State := Census
  store := Census.store
  Shape := Census.Sound
  Later := Census.Before
  refl := .refl
  trans := .trans

namespace Census.Sound

variable {w : Census} (h : w.Sound)
include h

/-! ### What the operations do to a census -/

/-- A store with the same scopes in scopes, and no fewer numbers given away. -/
theorem of_store {t : Store} (hsize : t.scopes.size = w.store.scopes.size)
    (haround : ∀ id, t.around? id = w.store.around? id) (hobjects : w.store.objects ≤ t.objects) :
    World.census.Next w t fun _ => True := by
  refine ⟨{ w with store := t }, rfl,
    ⟨fun id p hp => ?_, fun {id p} hp => ?_, fun {id c} hobject => ?_, fun {n f} hf => ?_⟩,
    ⟨hsize.ge, fun _ => haround _, fun _ => rfl, id⟩, trivial⟩
  · exact h.nested id p ((haround id).symm.trans hp)
  · exact h.around ((haround id).symm.trans hp)
  · obtain ⟨hlt, hnone⟩ := h.fields hobject
    exact ⟨hlt.trans_eq hsize.symm, (haround id).trans hnone⟩
  · exact (h.functions hf).trans_le hobjects

theorem define (id : ScopeId) (name : String) (v : Value) :
    World.census.Next w (w.store.define id name v) fun _ => True :=
  h.of_store Store.size_scopes_define (Store.around?_define _ _ _ _) (Nat.le_refl _)

theorem assign (id : ScopeId) (name : String) (v : Value) :
    World.census.Next w (w.store.assign id name v) fun _ => True := by
  rw [Store.assign_eq_define]
  exact h.define _ name v

theorem newObject : World.census.Next w w.store.newObject.2 fun _ => True :=
  h.of_store rfl (fun _ => rfl) (Nat.le_succ _)

theorem addModule (module : Module) :
    World.census.Next w (w.store.addModule module).2 fun _ => True :=
  h.of_store rfl (fun _ => rfl) (Nat.le_refl _)

/-- A new scope is open, and lies in an open one or in none; or it is that of an object, and lies in
none. -/
theorem newScope {parent : Option ScopeId} {object : Option Class}
    (hparent : ∀ p, parent = some p → w.Open p) (hobject : parent = none ∨ object = none)
    (bindings : Table Value) :
    let next := w.store.newScope parent bindings
    World.census.Next w next.2 fun w' =>
      next.1 < w'.store.scopes.size ∧ w'.objects next.1 = object := by
  intro next
  let w' : Census := ⟨next.2, w.functions, Function.update w.objects next.1 object⟩
  have hsize : w'.store.scopes.size = w.store.scopes.size + 1 := Array.size_push _
  have haround (id : ScopeId) : w'.store.around? id =
      if id = w.store.scopes.size then parent else w.store.around? id :=
    Store.around?_newScope _ _ _ _
  have hold {id : ScopeId} (hid : id < w.store.scopes.size) :
      w'.store.around? id = w.store.around? id ∧ w'.objects id = w.objects id :=
    ⟨by rw [haround, if_neg hid.ne], Function.update_of_ne hid.ne _ _⟩
  have hnew : next.1 < w'.store.scopes.size := (Nat.lt_succ_self _).trans_eq hsize.symm
  have hself : w'.objects next.1 = object := Function.update_self next.1 object w.objects
  have hlater : w.Before w' :=
    ⟨(Nat.le_succ _).trans_eq hsize.symm, fun hid => (hold hid).1, fun hid => (hold hid).2, id⟩
  -- Only open scopes have others in them.
  have hopen {id p : ScopeId} (hp : w'.store.around? id = some p) : p < id ∧ w.Open p := by
    rw [haround] at hp
    split at hp
    · next heq => exact ⟨heq ▸ (hparent p hp).lt_size, hparent p hp⟩
    · have hlt := h.nested id p hp
      exact ⟨hlt, hlt.trans (Store.lt_size_of_around? hp), h.around hp⟩
  refine ⟨w', rfl, ⟨fun _ _ hp => (hopen hp).1, fun hp => ((hopen hp).2.mono hlater).objects,
    fun {id c} hclass => ?_, h.functions⟩, hlater, hnew, hself⟩
  by_cases heq : id = w.store.scopes.size
  · -- The new scope is that of an object, so it lies in none.
    subst heq
    have hsome : object = some c := hself.symm.trans hclass
    have hnone : parent = none := hobject.resolve_right (by simp [hsome])
    exact ⟨hnew, by rw [haround, if_pos rfl, hnone]⟩
  · have hclass' : w.objects id = some c := (Function.update_of_ne heq _ _).symm.trans hclass
    obtain ⟨hlt, hnone⟩ := h.fields hclass'
    exact ⟨hlt.trans_le hlater.size, (hold hlt).1.trans hnone⟩

/-- A scope for code, inside an open one. -/
theorem newInner {id : ScopeId} (hid : w.Open id) (bindings : Table Value) :
    let next := w.store.newScope (some id) bindings
    World.census.Next w next.2 fun w' => w'.Open next.1 := by
  obtain ⟨w', hstore, hsound, hlater, hlt, hobject⟩ :=
    h.newScope (fun p hp => Option.some.inj hp ▸ hid) (.inr rfl) bindings
  exact ⟨w', hstore, hsound, hlater, hlt, hobject⟩

/-- A scope for code, inside no other. -/
theorem newRoot : let next := w.store.newScope none Table.empty
    World.census.Next w next.2 fun w' => w'.Open next.1 := by
  obtain ⟨w', hstore, hsound, hlater, hlt, hobject⟩ :=
    h.newScope (fun _ hp => absurd hp.symm (Option.some_ne_none _)) (.inl rfl) Table.empty
  exact ⟨w', hstore, hsound, hlater, hlt, hobject⟩

/-- The scope of a new object of a class. -/
theorem newFields (c : Class) : let next := w.store.newScope none Table.empty
    World.census.Next w next.2 fun w' =>
      next.1 < w'.store.scopes.size ∧ w'.objects next.1 = some c :=
  h.newScope (fun _ hp => absurd hp.symm (Option.some_ne_none _)) (.inl rfl) Table.empty

/-- A new function gets a number that no other has. -/
theorem newFunction {f : Closure} (hscope : w.Open f.scope) (hf : f.id = w.store.objects) :
    World.census.Next w w.store.newObject.2 fun w' =>
      w'.functions f.id = some f ∧ w'.Open f.scope := by
  let w' : Census := ⟨w.store.newObject.2, Function.update w.functions f.id (some f), w.objects⟩
  -- The number that is next has been given to nothing.
  have hother {n : ObjectId} {g : Closure} (hg : w.functions n = some g) : n ≠ f.id :=
    ((h.functions hg).trans_eq hf.symm).ne
  have hlater : w.Before w' := ⟨Nat.le_refl _, fun _ => rfl, fun _ => rfl, fun hg =>
    (Function.update_of_ne (hother hg) _ _).trans hg⟩
  refine ⟨w', rfl, ⟨h.nested, h.around, h.fields, fun {n g} hg => ?_⟩, hlater,
    Function.update_self _ _ _, hscope.mono hlater⟩
  change n < w.store.objects + 1
  by_cases heq : n = f.id
  · rw [heq, hf]
    exact Nat.lt_succ_self _
  · have hg' : w.functions n = some g := (Function.update_of_ne heq _ _).symm.trans hg
    exact (h.functions hg').trans (Nat.lt_succ_self _)

end Census.Sound

/-- Functions and objects are those that have been counted. Code runs in open scopes, and functions are
made there. -/
def Discipline.census : Discipline where
  toWorld := .census
  Source _ := True
  Closure w f := w.functions f.id = some f ∧ Census.Open w f.scope
  Fields w i := i.fields < w.store.scopes.size ∧ w.objects i.fields = some i.ofClass
  Open := Census.Open
  Runs w id _ := w.Open id
  closure_mono hw hf := ⟨hw.functions hf.1, hf.2.mono hw⟩
  fields_mono hw hi := ⟨hi.1.trans_le hw.size, (hw.objects hi.1).trans hi.2⟩
  open_mono hw hid := hid.mono hw
  runs_mono hw hid := hid.mono hw
  open_of_runs hid := hid
  runs_child hid _ := hid
  closure hw hruns hid := hw.newFunction hruns hid
  define {_ id _ name v} hw _ _ := hw.define id name v
  assign v hw _ := hw.assign _ _ v
  field v hw _ _ := hw.define _ _ v
  inner hw hid :=
    have ⟨w', hstore, hsound, hlater, hopen⟩ := hw.newInner hid _
    ⟨w', hstore, hsound, hlater, hopen, fun _ _ => hopen⟩
  call _ hw hf _ := hw.newInner hf.2 _
  root hw :=
    have ⟨w', hstore, hsound, hlater, hopen⟩ := hw.newRoot
    ⟨w', hstore, hsound, hlater, hopen, fun _ _ _ _ _ _ => hopen⟩
  fields c hw := hw.newFields c
  newObject hw := hw.newObject
  addModule module hw := hw.addModule module

theorem Discipline.census_lenient : Discipline.census.Lenient where
  source _ := trivial
  runs hid _ := hid
  define name v hw _ := Census.Sound.define hw _ name v

namespace Dialogue

/-- The scopes of the store are in order, and so are the functions and objects that have come up. -/
structure InOrder (x : Dialogue) : Prop where
  /-- Every scope was made after the one around it, -/
  nested : x.machine.store.IsNested
  /-- so that every way outwards ends -/
  chains : WellFounded fun p id => x.machine.store.around? id = some p
  /-- and with it every search for the owner of a name. -/
  search (id : ScopeId) (name : String) :
    x.machine.store.Search name id (x.machine.store.owner? id name)
  /-- The scope that a function sees is there, -/
  closure {f : Closure} : x.Held (.function f) → f.scope < x.machine.store.scopes.size
  /-- and so is that of the fields of an object, which lies in no other. -/
  fields {i : Instance} : x.Held (.object i) →
    i.fields < x.machine.store.scopes.size ∧ x.machine.store.around? i.fields = none
  receiver {m : BoundMethod} : x.Held (.method m) →
    m.receiver.fields < x.machine.store.scopes.size ∧
      x.machine.store.around? m.receiver.fields = none

/-- What is there is there later as well, as it is. -/
structure Precedes (x y : Dialogue) : Prop where
  /-- A scope stays in the scope that it was made in. -/
  around {id : ScopeId} : id < x.machine.store.scopes.size →
    id < y.machine.store.scopes.size ∧ y.machine.store.around? id = x.machine.store.around? id
  /-- A function stays as it is; no other has its number. -/
  function {f g : Closure} : x.Held (.function f) → y.Held (.function g) → f.id = g.id → f = g
  /-- An object stays as it is; no other has its fields in the same scope. -/
  object {i j : Instance} : x.Held (.object i) → y.Held (.object j) → i.fields = j.fields → i = j
  /-- No scope ever lies in that of the fields of an object, -/
  alone {i : Instance} (id : ScopeId) : x.Held (.object i) →
    y.machine.store.around? id ≠ some i.fields
  /-- and no function sees it, be it made after the object -/
  unseen {i : Instance} {f : Closure} : x.Held (.object i) → y.Held (.function f) →
    f.scope ≠ i.fields
  /-- or before. -/
  unseen_before {i : Instance} {f : Closure} : x.Held (.function f) → y.Held (.object i) →
    f.scope ≠ i.fields

section Census

variable {w w' : Census} {x y : Dialogue} (hx : Discipline.census.Knows w x)
include hx

theorem store_eq_of_knows : x.machine.store = w.store := hx.store.symm

theorem counted_function {f : Closure} (hf : x.Held (.function f)) :
    w.functions f.id = some f ∧ w.Open f.scope := hx.value hf

theorem counted_object {i : Instance} (hi : x.Held (.object i)) :
    i.fields < w.store.scopes.size ∧ w.objects i.fields = some i.ofClass :=
  Discipline.Object.fields (hx.value hi)

/-- What a census counts is in order. -/
theorem inOrder_of_knows : x.InOrder := by
  have hsound : w.Sound := hx.fine.shape
  have hfields {i : Instance} (hi : x.Held (.object i)) :
      i.fields < x.machine.store.scopes.size ∧ x.machine.store.around? i.fields = none := by
    rw [store_eq_of_knows hx]
    exact hsound.fields (counted_object hx hi).2
  have hnested : x.machine.store.IsNested := store_eq_of_knows hx ▸ hsound.nested
  refine ⟨hnested, hnested.wellFounded, hnested.search, fun hf => ?_, hfields,
    fun hm => hfields (.receiver hm)⟩
  rw [store_eq_of_knows hx]
  exact (counted_function hx hf).2.lt_size

/-- What has been counted stays as it is. -/
theorem precedes_of_knows (hy : Discipline.census.Knows w' y) (hlater : w.Before w') :
    x.Precedes y := by
  have hsound : w'.Sound := hy.fine.shape
  have hobject {i : Instance} (hi : x.Held (.object i)) : w'.objects i.fields = some i.ofClass := by
    obtain ⟨hlt, hclass⟩ := counted_object hx hi
    exact (hlater.objects hlt).trans hclass
  constructor
  case around =>
    intro id hid
    rw [store_eq_of_knows hx] at hid ⊢
    rw [store_eq_of_knows hy]
    exact ⟨hid.trans_le hlater.size, hlater.around hid⟩
  case function =>
    -- The later census has one function with the number, and it is both of them.
    intro f g hf hg heq
    have hf' := hlater.functions (counted_function hx hf).1
    rw [heq, (counted_function hy hg).1] at hf'
    exact (Option.some.inj hf').symm
  case object =>
    intro i j hi hj heq
    have hi' := hobject hi
    rw [heq, (counted_object hy hj).2] at hi'
    obtain ⟨c, fields⟩ := i
    obtain ⟨c', fields'⟩ := j
    cases heq
    cases hi'
    rfl
  case alone =>
    intro i id hi haround
    rw [store_eq_of_knows hy] at haround
    have hnone := hsound.around haround
    rw [hobject hi] at hnone
    cases hnone
  case unseen =>
    intro i f hi hf heq
    have hnone := (counted_function hy hf).2.objects
    rw [heq, hobject hi] at hnone
    cases hnone
  case unseen_before =>
    -- The scope was open when the function was made, and stays so.
    intro i f hf hi heq
    have hnone := ((counted_function hx hf).2.mono hlater).objects
    rw [heq, (counted_object hy hi).2] at hnone
    cases hnone

end Census

/-- Before the first request nothing has been counted. -/
theorem start_counted (echo : Bool) : ∃ w, Discipline.census.Knows w (start echo) := by
  have hempty (id : ScopeId) : (default : Store).around? id = none :=
    Store.around?_eq_none (Nat.zero_le id)
  refine ⟨⟨{}, fun _ => none, fun _ => none⟩, .start echo rfl ?_⟩
  refine ⟨fun id p hp => ?_, fun _ => rfl, fun hobject => ?_, fun hfunction => ?_⟩
  · cases (hempty id).symm.trans hp
  · cases hobject
  · cases hfunction

/-- **The heap of scopes is in order.** Whatever is evaluated, called and loaded, and however it ends:
scopes lie in scopes that were made before, so that searches end; functions and objects refer to scopes
that are there. The scope of an object lies in none and none in it, no function sees it, and it belongs
to no other object, now or later. What a function sees and where a scope lies never changes. -/
theorem heap_inOrder {echo : Bool} {x y : Dialogue} (hx : (start echo).Reaches x)
    (hy : x.Reaches y) : x.InOrder ∧ x.Precedes y := by
  obtain ⟨w₀, hstart⟩ := start_counted echo
  obtain ⟨w, -, hknows⟩ := hstart.reaches Discipline.census_lenient hx
  obtain ⟨w', hlater, hknows'⟩ := hknows.reaches Discipline.census_lenient hy
  exact ⟨inOrder_of_knows hknows, precedes_of_knows hknows hknows' hlater⟩

end Dialogue

/-- The scope that an object has its fields in. -/
def Value.fieldScope? : Value → Option ScopeId
  | .object i => some i.fields
  | _ => none

theorem Value.exists_object_of_fieldScope? {v : Value} {id : ScopeId} (h : v.fieldScope? = some id) :
    ∃ i, v = .object i ∧ i.fields = id := by
  cases v with
  | object i => exact ⟨i, rfl, Option.some.inj h⟩
  | _ => cases h

namespace Dialogue

/-- A setting without modules. -/
def noModules : Setting := ⟨4, Library.resolve .empty⟩

/-- A scope has been made. -/
def opened : Dialogue := (start false).next noModules .newRoot

/-- A class and an object have been made there; the object holds itself, and the scope that the method
sees binds the class with the method. -/
def tangled : Dialogue := opened.next noModules (.evaluate
  ⟨"main", "clx Box \x7b fx put(self, v) \x7b self.v = v \x7d \x7d b = Box() b.put(b)"⟩ 0)

/-- The object is in no scope's way: its fields are in a scope of their own, with itself among them, and
the call of the method has left a scope behind that lies in that of the class. -/
theorem heap_inOrder_tangled :
    ((start false).Reaches opened ∧ opened.Reaches tangled) ∧
      opened.InOrder ∧ opened.Precedes tangled ∧ tangled.InOrder ∧
      ∃ i, tangled.Held (.object i) ∧ i.fields = 1 ∧
        (tangled.machine.store.bindings 1).get? "v" = some (.object i) ∧
        tangled.machine.store.around? 2 = some 0 ∧
        ∀ id, tangled.machine.store.around? id ≠ some 1 := by
  have hopened : (start false).Reaches opened := .single ⟨noModules, .newRoot, trivial, rfl⟩
  have htangled : opened.Reaches tangled := .single ⟨noModules, _, List.mem_cons_self, rfl⟩
  obtain ⟨hbefore, hprecedes⟩ := heap_inOrder hopened htangled
  obtain ⟨hafter, hitself⟩ := heap_inOrder (hopened.trans htangled) .refl
  refine ⟨⟨hopened, htangled⟩, hbefore, hprecedes, hafter, ?_⟩
  have hbound : ((tangled.machine.store.bindings 1).get? "v").bind Value.fieldScope? = some 1 := by
    decide +kernel
  obtain ⟨v, hv, hscope⟩ := Option.bind_eq_some_iff.1 hbound
  obtain ⟨i, rfl, hfields⟩ := Value.exists_object_of_fieldScope? hscope
  have hheld : tangled.Held (.object i) := .bound hv
  refine ⟨i, hheld, hfields, hv, by decide +kernel, fun id => ?_⟩
  rw [← hfields]
  exact hitself.alone id hheld

end Dialogue

end ScriptLang
