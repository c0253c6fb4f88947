import Mathlib.Logic.Relation
import ScriptLang.Proofs.Eval.Obedience
import ScriptLang.Proofs.Session.Request

/-!
# Dialogues

Whoever holds a session makes its requests with what the session has given back before: the scopes that
it has made, and values that have come up anywhere so far. Nothing else can be put together outside,
since functions, classes and objects are made by running code only.

A dialogue is such a session. What a discipline admits at its beginning it admits all along, in
whatever way the requests end.

## Main definitions

* `Dialogue`: the answers so far and the machine
* `Dialogue.Held`: the values that have been given back or are found in the store, and their parts
* `Dialogue.Step`: a request made with what is held
* `Discipline.Lenient`: a discipline that does not look at the code
* `Discipline.Knows`: a discipline admits all that is held

## Main results

* `Discipline.perform_keeps`: requests that are made with what is admitted obey
* `Discipline.Knows.reaches`: so does every dialogue, if the discipline is lenient
-/

namespace ScriptLang

/-- A session and what it has given back so far. -/
structure Dialogue where
  given : List Answer
  machine : Machine

namespace Dialogue

/-- A dialogue that has not begun. -/
def start (echo : Bool) : Dialogue := ⟨[], .start echo⟩

/-- The dialogue after one more request. -/
def next (setting : Setting) (request : Request) (x : Dialogue) : Dialogue :=
  match request.perform setting x.machine with
  | .ok answer m => ⟨answer :: x.given, m⟩
  | .error _ m => ⟨x.given, m⟩

/-- The value has come up: it has been given back, it is bound somewhere, or it is a part of a value that
has come up. Data can be made outside as well, and a method can be bound to another object. -/
inductive Held (x : Dialogue) : Value → Prop where
  | given {v : Value} : .value v ∈ x.given → Held x v
  | data {v : Value} : v.isData = true → Held x v
  | bound {id : ScopeId} {name : String} {v : Value} :
    (x.machine.store.bindings id).get? name = some v → Held x v
  | member {ref : ModuleRef} {module : Module} {name : String} {v : Value} :
    x.machine.store.module? ref = some module → module.members.get? name = some v → Held x v
  | methodOf {c : Class} {name : String} {f : Closure} : Held x (.ofClass c) →
    c.methods.get? name = some f → Held x (.function f)
  | classOf {i : Instance} : Held x (.object i) → Held x (.ofClass i.ofClass)
  | receiver {m : BoundMethod} : Held x (.method m) → Held x (.object m.receiver)
  | function {m : BoundMethod} : Held x (.method m) → Held x (.function m.method)
  | attach {i : Instance} {f : Closure} : Held x (.object i) → Held x (.function f) →
    Held x (.method ⟨i, f⟩)

/-- The request is made with scopes that have been given back and values that have come up. -/
def Allows (x : Dialogue) : Request → Prop
  | .evaluate _ scope | .run _ scope _ | .newChild scope => .scope scope ∈ x.given
  | .call callee args _ => x.Held callee ∧ ∀ v ∈ args, x.Held v
  | .define scope _ v => .scope scope ∈ x.given ∧ x.Held v
  | .load _ | .newRoot => True

/-- One request more. -/
def Step (x y : Dialogue) : Prop :=
  ∃ setting request, x.Allows request ∧ y = x.next setting request

/-- Some requests more. -/
def Reaches : Dialogue → Dialogue → Prop := Relation.ReflTransGen Step

end Dialogue

namespace Discipline

variable {D : Discipline}

/-- The answer is an admitted value, or a scope that units may run in. -/
def Answers (D : Discipline) (s : D.State) : Answer → Prop
  | .value v => D.Value s v
  | .scope id => D.Hosts s id
  | .module _ | .done => True

theorem Answers.mono {s s' : D.State} (hs : D.Later s s') {answer : Answer}
    (h : D.Answers s answer) : D.Answers s' answer := by
  cases answer with
  | value v => exact Value.mono hs h
  | scope id => exact Hosts.mono hs h
  | module | done => trivial

/-- The request is made with what is admitted. -/
def Admits (D : Discipline) (s : D.State) : Request → Prop
  | .evaluate source scope => D.Source source ∧ D.Hosts s scope
  | .run program scope _ => D.RunsAll s scope (program.stmts.map .stmt)
  | .newChild scope => D.Hosts s scope
  | .call callee args _ => D.Value s callee ∧ D.Values s args
  | .define scope name v =>
    (D.Shape s → D.Next s ((D.store s).define scope name v) fun _ => True) ∧ D.Value s v
  | .load _ | .newRoot => True

/-- What is done with all frames that are left obeys if it obeys with any number of them. -/
theorem withHost_keeps {α : Type} {s : D.State} {setting : Setting} {body : Host → Eval α}
    {value : D.State → α → Prop}
    (h : ∀ frames, D.Keeps s (body (Host.withFrames setting frames)) value) :
    D.Keeps s (Session.withHost setting body) value :=
  fun m => h (setting.maxFrames - m.depth) m

/-- Requests that are made with what is admitted obey. -/
theorem perform_keeps {s : D.State} {setting : Setting} {request : Request}
    (hsetting : D.Finds setting) (h : D.Admits s request) :
    D.Keeps s (request.perform setting) D.Answers := by
  -- Whatever frames are left, the calls and loads that code makes obey.
  have hosts (frames : Nat) : D.HostKeeps (Host.withFrames setting frames) :=
    withFrames_keeps hsetting frames
  have hrun (program : Program) (scope : ScopeId) (unit : String)
      (hruns : D.RunsAll s scope (program.stmts.map .stmt)) :
      D.Keeps s (Session.run setting program scope unit) D.Value :=
    withHost_keeps fun frames => runProgram_keeps (hosts frames) hruns
  cases request with
  | evaluate source scope =>
    have hevaluate : D.Keeps s (Session.evaluate setting source scope) D.Value := by
      rw [Session.evaluate]
      cases hprogram : Program.parse source with
      | ok program => exact hrun program scope source.name (h.2.runs source program h.1 hprogram)
      | error d => exact .throw
    exact hevaluate.bind fun _ _ _ hv => .pure hv
  | run program scope unit => exact (hrun program scope unit h).bind fun _ _ _ hv => .pure hv
  | call callee args span =>
    have hcall : D.Keeps s (Session.call setting callee args span) D.Value :=
      withHost_keeps fun frames => (hosts frames).call h.1 h.2
    exact hcall.bind fun _ _ _ hv => .pure hv
  | load name =>
    have hload : D.Keeps s (Session.load setting name) D.Any :=
      withHost_keeps fun frames => (hosts frames).load
    exact hload.bind fun _ _ _ _ => .pure trivial
  | newRoot => exact Keeps.rootScope.bind fun _ _ _ hhosts => .pure hhosts
  | newChild scope =>
    refine (Keeps.innerScope h.isOpen).bind fun inner s' hlater hinner => .pure ⟨hinner.1, ?_⟩
    exact fun source program hsource hprogram x hx =>
      hinner.2 x (h.runs source program hsource hprogram x hx)
  | define scope name v =>
    have hdefine : D.Keeps s (Eval.modifyStore (·.define scope name v)) D.Any :=
      .modifyStore fun hfine =>
        hfine.next (h.1 hfine.shape) fun _ hlater hs => hs.define (h.2.mono hlater)
    exact hdefine.bind fun _ _ _ _ => .pure trivial

/-- Any code may run wherever code may run, and any name may be bound there. -/
structure Lenient (D : Discipline) : Prop where
  source (source : SourceUnit) : D.Source source
  runs {s : D.State} {id : ScopeId} : D.Open s id → ∀ x, D.Runs s id x
  define {s : D.State} {id : ScopeId} (name : String) (v : ScriptLang.Value) : D.Shape s →
    D.Open s id → D.Next s ((D.store s).define id name v) fun _ => True

/-- The state is one of the machine, and everything that has been given back is admitted. -/
structure Knows (D : Discipline) (s : D.State) (x : Dialogue) : Prop where
  store : D.store s = x.machine.store
  fine : D.Fine s
  given : ∀ answer ∈ x.given, D.Answers s answer

namespace Knows

variable {s : D.State} {x y : Dialogue}

/-- Whatever has come up is admitted. -/
theorem value (h : D.Knows s x) {v : ScriptLang.Value} (hv : x.Held v) : D.Value s v := by
  have hholds := h.fine.holds
  rw [h.store] at hholds
  -- What the store holds is admitted, and so are the parts of what is admitted.
  induction hv with
  | given hgiven => exact h.given _ hgiven
  | data hdata => exact value_of_isData hdata
  | bound hbound => exact hholds.bindings _ _ _ hbound
  | member hmodule hmember => exact hholds.members _ _ hmodule _ _ hmember
  | methodOf _ hmethod ih => exact ih _ _ hmethod
  | classOf _ ih => exact ih.methods
  | receiver _ ih => exact ih.2
  | function _ ih => exact ih.1
  | attach _ _ ihObject ihFunction => exact ⟨ihFunction, ihObject⟩

/-- A request that is made with what is admitted. -/
theorem next (h : D.Knows s x) {setting : Setting} {request : Request} (hsetting : D.Finds setting)
    (hadmits : D.Admits s request) : ∃ s', D.Later s s' ∧ D.Knows s' (x.next setting request) := by
  have hrun := perform_keeps hsetting hadmits x.machine h.store h.fine
  rw [Dialogue.next]
  generalize request.perform setting x.machine = result at hrun ⊢
  cases hrun with
  | ok s' hstore hlater hfine hanswer =>
    refine ⟨s', hlater, hstore, hfine, List.forall_mem_cons.2 ⟨hanswer, fun answer hgiven => ?_⟩⟩
    exact (h.given answer hgiven).mono hlater
  | error s' hstore hlater hfine =>
    exact ⟨s', hlater, hstore, hfine, fun answer hgiven => (h.given answer hgiven).mono hlater⟩

/-- One request more. -/
theorem step (h : D.Knows s x) (hD : D.Lenient) (hstep : x.Step y) :
    ∃ s', D.Later s s' ∧ D.Knows s' y := by
  obtain ⟨setting, request, hallows, rfl⟩ := hstep
  refine h.next (fun _ _ _ => hD.source _) ?_
  cases request with
  | evaluate source scope => exact ⟨hD.source source, h.given _ hallows⟩
  | run program scope unit => exact fun y _ => hD.runs (h.given _ hallows).isOpen y
  | newChild scope => exact h.given _ hallows
  | call callee args span => exact ⟨h.value hallows.1, fun v hv => h.value (hallows.2 v hv)⟩
  | define scope name v =>
    exact ⟨fun hshape => hD.define name v hshape (h.given _ hallows.1).isOpen, h.value hallows.2⟩
  | load | newRoot => trivial

/-- From request to request the state becomes another one that is admitted. -/
theorem reaches (h : D.Knows s x) (hD : D.Lenient) (hreaches : x.Reaches y) :
    ∃ s', D.Later s s' ∧ D.Knows s' y := by
  induction hreaches with
  | refl => exact ⟨s, D.refl s, h⟩
  | tail _ hstep ih =>
    obtain ⟨s', hlater, hknows⟩ := ih
    obtain ⟨s'', hlater', hknows'⟩ := hknows.step hD hstep
    exact ⟨s'', D.trans hlater hlater', hknows'⟩

/-- Before the first request nothing is held but data. -/
theorem start (echo : Bool) (hstore : D.store s = {}) (hshape : D.Shape s) :
    D.Knows s (Dialogue.start echo) where
  store := hstore
  fine := ⟨hshape, by rw [hstore]; exact .empty⟩
  given := List.forall_mem_nil _

end Knows

end Discipline

end ScriptLang
