import Mathlib.Logic.Function.Basic
import ScriptLang.Proofs.Machine.Nesting
import ScriptLang.Proofs.Session.Moments
import ScriptLang.Proofs.Syntax.Names

/-!
# Where reserved words are bound

What a program names is no reserved word. So functions, classes, assignments and parameters bind none,
but for the word for the receiver, which may be a parameter. Loads are another matter: a module is bound
to the last part of its path, however this is spelled.

A function is called inside the scope that it was made in. So the functions that are being called around
some code are those that the code stands in, and where none of these declares the receiver, the word for
it leads to nothing, or to a module. The store does not tell which scope was made for which call; a
record of calls does.

## Main definitions

* `Node.OccursIn`, `LoadsAs`: the code of some units, and the names that they load modules under
* `Store.IsCallOf`: a scope that was made to call a function
* `CallRecord`, `CallRecord.Runs`: the calls so far, and what code runs inside which of them
* `Discipline.calls`: code runs where it stands
* `Store.KeepsReserved`: reserved words are bound in calls to receivers, and elsewhere to modules
* `Dialogue.ReachesFrom`: dialogues with the code of some units

## Main results

* `Node.Binds.reserved`: what binds a reserved word is a load
* `CallRecord.Sound.enter`: a record goes on with scopes that are made
* `Discipline.Meets.selfRef`: what the word for the receiver leads to
* `Dialogue.reserved_words_kept`: both, at every moment of every dialogue
* `Dialogue.not_reserved_words_unbound`: a load that binds the word for the receiver
-/

namespace ScriptLang

/-! ### The code of some units -/

/-- The code stands in one of the units. -/
def Node.OccursIn (units : SourceUnit → Prop) (x : Node) : Prop :=
  ∃ source program stmt, units source ∧ Program.parse source = .ok program ∧
    stmt ∈ program.stmts ∧ (Node.stmt stmt).Contains x

/-- One of the units loads a module that is bound to the name. -/
def LoadsAs (units : SourceUnit → Prop) (name : String) : Prop :=
  ∃ paths span path, (Node.stmt (.load paths span)).OccursIn units ∧ path ∈ paths ∧
    bareName path.path = name

/-- The function declares the receiver. -/
def Lambda.DeclaresSelf (f : Lambda) : Prop := selfName ∈ f.params.map Ident.name

/-- The function stands in one of the units; the scope lies in the one that the function was made in,
and binds its parameters before anything else. -/
structure Store.IsCallOf (units : SourceUnit → Prop) (s : Store) (id : ScopeId) (f : Closure) :
    Prop where
  occurs : (Node.function f.function).OccursIn units
  around : s.around? id = some f.scope
  params : f.function.params.map Ident.name <+: (s.bindings id).names

section Units

variable {units : SourceUnit → Prop} {x y : Node}

theorem Node.OccursIn.nameFree (h : x.OccursIn units) : x.NameFree := by
  obtain ⟨source, program, stmt, -, hprogram, hstmt, hx⟩ := h
  exact Program.nameFree_of_parse hprogram hstmt hx

theorem Node.OccursIn.child (h : x.OccursIn units) (hy : y ∈ x.children) : y.OccursIn units := by
  obtain ⟨source, program, stmt, hsource, hprogram, hstmt, hx⟩ := h
  exact ⟨source, program, stmt, hsource, hprogram, hstmt, hx.tail hy⟩

theorem Keyword.ne_text {name : String} (h : Keyword.ofText? name = none) (k : Keyword) :
    name ≠ k.text := by
  rintro rfl
  rw [Keyword.ofText?_text] at h
  cases h

theorem Keyword.text_injective : Function.Injective Keyword.text := by
  intro k k' h
  have hk := Keyword.ofText?_text k
  rw [h, Keyword.ofText?_text] at hk
  exact (Option.some.inj hk).symm

/-- Only the word for the receiver is both a parameter and a reserved word. -/
theorem Lambda.ParamsFree.reserved {f : Lambda} (h : f.ParamsFree) {k : Keyword}
    (hk : k.text ∈ f.params.map Ident.name) : k = .selfWord ∧ f.DeclaresSelf := by
  obtain ⟨param, hparam, hname⟩ := List.mem_map.1 hk
  have hself : k.text = Keyword.selfWord.text := by
    obtain hfree | hself := h.free param hparam
    · exact absurd hname (Keyword.ne_text hfree k)
    · exact hname.symm.trans hself
  obtain rfl := Keyword.text_injective hself
  exact ⟨rfl, hk⟩

/-- A statement that binds a reserved word loads a module. -/
theorem Node.Binds.reserved {k : Keyword} {v : Value} {name : String} (h : x.Binds name v)
    (hx : x.OccursIn units) (hname : name = k.text) :
    (∃ ref, v = .module ref) ∧ LoadsAs units k.text := by
  cases h with
  | define => exact absurd hname (Keyword.ne_text hx.nameFree k)
  | declareClass => exact absurd hname (Keyword.ne_text hx.nameFree k)
  | load hpath => exact ⟨⟨_, rfl⟩, _, _, _, hx, hpath, hname⟩

end Units

/-! ### Records of calls -/

/-- A store, and the function that each scope was made to call. -/
structure CallRecord where
  store : Store
  callee : ScopeId → Option Closure

namespace CallRecord

/-- Every scope on the way outwards is there. -/
def Open (w : CallRecord) (id : ScopeId) : Prop := ∀ c, w.store.Outwards id c → c < w.store.scopes.size

/-- Scopes are nested, those of calls are what they are for, and reserved words are bound in such scopes
to the receiver, and elsewhere to modules. -/
structure Sound (units : SourceUnit → Prop) (w : CallRecord) : Prop where
  nested : w.store.IsNested
  call {id : ScopeId} {f : Closure} : w.callee id = some f → w.store.IsCallOf units id f
  reserved {id : ScopeId} {k : Keyword} {v : Value} : (w.store.bindings id).get? k.text = some v →
    (k = .selfWord ∧ ∃ f, w.callee id = some f ∧ f.function.DeclaresSelf) ∨
      (∃ ref, v = .module ref) ∧ LoadsAs units k.text

/-- Scopes stay where they are, and what they are. -/
structure Before (w w' : CallRecord) : Prop where
  size : w.store.scopes.size ≤ w'.store.scopes.size
  around {id : ScopeId} : id < w.store.scopes.size → w'.store.around? id = w.store.around? id
  callee {id : ScopeId} : id < w.store.scopes.size → w'.callee id = w.callee id

/-- The code stands in one of the units, and in every function that a scope on the way outwards was made
to call. -/
structure Runs (units : SourceUnit → Prop) (w : CallRecord) (id : ScopeId) (x : Node) : Prop where
  isOpen : w.Open id
  occurs : x.OccursIn units
  inside {c : ScopeId} {f : Closure} : w.store.Outwards id c → w.callee c = some f →
    (Node.block f.function.body).Contains x

theorem Before.refl (w : CallRecord) : w.Before w := ⟨Nat.le_refl _, fun _ => rfl, fun _ => rfl⟩

theorem Before.trans {w w' w'' : CallRecord} (h : w.Before w') (h' : w'.Before w'') :
    w.Before w'' where
  size := h.size.trans h'.size
  around hid := (h'.around (hid.trans_le h.size)).trans (h.around hid)
  callee hid := (h'.callee (hid.trans_le h.size)).trans (h.callee hid)

section Mono

variable {units : SourceUnit → Prop} {w w' : CallRecord} {id : ScopeId} {x y : Node}

theorem Open.outwards_iff (h : w.Open id) (hw : w.Before w') {c : ScopeId} :
    w'.store.Outwards id c ↔ w.store.Outwards id c :=
  Store.outwards_congr fun c hc => hw.around (h c hc)

theorem Open.mono (h : w.Open id) (hw : w.Before w') : w'.Open id := fun c hc =>
  (h c ((h.outwards_iff hw).1 hc)).trans_le hw.size

theorem Runs.mono (h : Runs units w id x) (hw : w.Before w') : Runs units w' id x where
  isOpen := h.isOpen.mono hw
  occurs := h.occurs
  inside {c f} hc hf := by
    rw [h.isOpen.outwards_iff hw] at hc
    rw [hw.callee (h.isOpen c hc)] at hf
    exact h.inside hc hf

theorem Runs.child (h : Runs units w id x) (hy : y ∈ x.children) : Runs units w id y where
  isOpen := h.isOpen
  occurs := h.occurs.child hy
  inside hc hf := (h.inside hc hf).tail hy

end Mono

/-- One scope more, made to call a function or not. -/
def enter (w : CallRecord) (parent : Option ScopeId) (bindings : Table Value)
    (callee : Option Closure) : CallRecord where
  store := (w.store.newScope parent bindings).2
  callee := Function.update w.callee w.store.scopes.size callee

section Enter

variable {units : SourceUnit → Prop} {w : CallRecord} {parent : Option ScopeId}
  {bindings : Table Value} {callee : Option Closure} {id c : ScopeId}

theorem size_enter :
    (w.enter parent bindings callee).store.scopes.size = w.store.scopes.size + 1 :=
  Array.size_push _

theorem around?_enter : (w.enter parent bindings callee).store.around? id =
    if id = w.store.scopes.size then parent else w.store.around? id :=
  Store.around?_newScope _ _ _ _

theorem bindings_enter : (w.enter parent bindings callee).store.bindings id =
    if id = w.store.scopes.size then bindings else w.store.bindings id :=
  Store.bindings_newScope _ _ _ _

theorem callee_enter : (w.enter parent bindings callee).callee id =
    if id = w.store.scopes.size then callee else w.callee id :=
  Function.update_apply _ _ _ _

theorem before_enter : w.Before (w.enter parent bindings callee) where
  size := size_enter ▸ Nat.le_succ _
  around hid := by rw [around?_enter, if_neg hid.ne]
  callee hid := by rw [callee_enter, if_neg hid.ne]

/-- From the new scope the way leads to the scope around it, and on as before. -/
theorem outwards_enter (hparent : ∀ p, parent = some p → w.Open p)
    (hc : (w.enter parent bindings callee).store.Outwards w.store.scopes.size c) :
    c = w.store.scopes.size ∨ ∃ p, parent = some p ∧ w.store.Outwards p c := by
  obtain heq | ⟨p, hp, hrest⟩ := Relation.ReflTransGen.cases_head hc
  · exact .inl heq.symm
  · rw [around?_enter, if_pos rfl] at hp
    exact .inr ⟨p, hp, ((hparent p hp).outwards_iff before_enter).1 hrest⟩

theorem open_enter (hparent : ∀ p, parent = some p → w.Open p) :
    (w.enter parent bindings callee).Open w.store.scopes.size := by
  intro c hc
  rw [size_enter]
  obtain rfl | ⟨p, hp, hrest⟩ := outwards_enter hparent hc
  · exact Nat.lt_succ_self _
  · exact Nat.lt_succ_of_lt (hparent p hp c hrest)

/-- The code may run in the new scope if it may run around it, and stands in the function. -/
theorem runs_enter {x : Node} (hx : x.OccursIn units)
    (hparent : ∀ p, parent = some p → Runs units w p x)
    (hcallee : ∀ f, callee = some f → (Node.block f.function.body).Contains x) :
    Runs units (w.enter parent bindings callee) w.store.scopes.size x := by
  have hopen (p : ScopeId) (hp : parent = some p) : w.Open p := (hparent p hp).isOpen
  refine ⟨open_enter hopen, hx, fun {c f} hc hf => ?_⟩
  rw [callee_enter] at hf
  obtain rfl | ⟨p, hp, hrest⟩ := outwards_enter hopen hc
  · rw [if_pos rfl] at hf
    exact hcallee f hf
  · rw [if_neg (hopen p hp c hrest).ne] at hf
    exact (hparent p hp).inside hrest hf

/-- The record stays sound, if the scope lies in one that is there, and is a call of the function. -/
theorem Sound.enter (h : w.Sound units) (hparent : ∀ p, parent = some p → w.Open p)
    (hcallee : ∀ f, callee = some f → (Node.function f.function).OccursIn units ∧
      parent = some f.scope ∧ f.function.params.map Ident.name <+: bindings.names)
    (hreserved : ∀ (k : Keyword) (v : Value), bindings.get? k.text = some v →
      k = .selfWord ∧ ∃ f, callee = some f ∧ f.function.DeclaresSelf) :
    (w.enter parent bindings callee).Sound units where
  nested id p hp := by
    rw [around?_enter] at hp
    split at hp
    · next heq => exact heq ▸ hparent p hp p .refl
    · exact h.nested id p hp
  call {id f} hf := by
    rw [callee_enter] at hf
    split at hf
    · next heq =>
      obtain ⟨hoccurs, hscope, hparams⟩ := hcallee f hf
      exact ⟨hoccurs, by rw [around?_enter, if_pos heq, hscope], by rwa [bindings_enter, if_pos heq]⟩
    · next hne =>
      obtain ⟨hoccurs, hscope, hparams⟩ := h.call hf
      exact ⟨hoccurs, by rw [around?_enter, if_neg hne, hscope], by rwa [bindings_enter, if_neg hne]⟩
  reserved {id k v} hv := by
    rw [bindings_enter] at hv
    rw [callee_enter]
    split at hv
    · next heq =>
      rw [if_pos heq]
      exact .inl (hreserved k v hv)
    · next hne =>
      rw [if_neg hne]
      exact h.reserved hv

end Enter

end CallRecord

/-- Where calls are recorded. -/
def World.calls (units : SourceUnit → Prop) : World where
  State := CallRecord
  store := CallRecord.store
  Shape := CallRecord.Sound units
  Later := CallRecord.Before
  refl := .refl
  trans := .trans

namespace CallRecord.Sound

variable {units : SourceUnit → Prop} {w : CallRecord} (h : w.Sound units)
include h

/-- A store with the same scopes in scopes, that binds more names, but no reserved words other than to
modules. -/
theorem of_store {t : Store} (hsize : t.scopes.size = w.store.scopes.size)
    (haround : ∀ id, t.around? id = w.store.around? id)
    (hnames : ∀ id, (w.store.bindings id).names <+: (t.bindings id).names)
    (hreserved : ∀ (id : ScopeId) (k : Keyword) (v : Value), (t.bindings id).get? k.text = some v →
      (w.store.bindings id).get? k.text = some v ∨
        (∃ ref, v = .module ref) ∧ LoadsAs units k.text) :
    (World.calls units).Next w t fun _ => True := by
  refine ⟨{ w with store := t }, rfl, ⟨fun id p hp => ?_, fun {id f} hf => ?_,
    fun {id k v} hv => ?_⟩, ⟨hsize.ge, fun _ => haround _, fun _ => rfl⟩, trivial⟩
  · exact h.nested id p ((haround id).symm.trans hp)
  · obtain ⟨hoccurs, hscope, hparams⟩ := h.call hf
    exact ⟨hoccurs, (haround id).trans hscope, hparams.trans (hnames id)⟩
  · obtain hold | hmodule := hreserved id k v hv
    · exact h.reserved hold
    · exact .inr hmodule

/-- A name is bound that is no reserved word, or to a module that is loaded. -/
theorem define {id : ScopeId} {name : String} {v : Value}
    (hname : ∀ k : Keyword, name = k.text → (∃ ref, v = .module ref) ∧ LoadsAs units k.text) :
    (World.calls units).Next w (w.store.define id name v) fun _ => True := by
  refine h.of_store Store.size_scopes_define (Store.around?_define _ _ _ _) (fun other => ?_)
    fun other k u hu => ?_
  · obtain heq | heq := Store.bindings_define w.store id name v other
    · rw [heq, Table.names_insert]
      split
      · exact List.prefix_rfl
      · exact List.prefix_append _ _
    · rw [heq]
  · obtain heq | heq := Store.bindings_define w.store id name v other
    · rw [heq, Table.get?_insert] at hu
      split at hu
      · next hk =>
        cases hu
        exact .inr (hname k hk)
      · exact .inl hu
    · rw [heq] at hu
      exact .inl hu

theorem define_free {id : ScopeId} {name : String} {v : Value}
    (hname : Keyword.ofText? name = none) :
    (World.calls units).Next w (w.store.define id name v) fun _ => True :=
  h.define fun k hk => absurd hk (Keyword.ne_text hname k)

theorem newObject : (World.calls units).Next w w.store.newObject.2 fun _ => True :=
  h.of_store rfl (fun _ => rfl) (fun _ => List.prefix_rfl) fun _ _ _ hv => .inl hv

theorem addModule (module : Module) :
    (World.calls units).Next w (w.store.addModule module).2 fun _ => True :=
  h.of_store rfl (fun _ => rfl) (fun _ => List.prefix_rfl) fun _ _ _ hv => .inl hv

/-- A scope for a block, inside another one. -/
theorem newInner {id : ScopeId} (hid : w.Open id) :
    let next := w.store.newScope (some id) Table.empty
    (World.calls units).Next w next.2 fun w' =>
      w'.Open next.1 ∧ ∀ x, Runs units w id x → Runs units w' next.1 x := by
  have hparent (p : ScopeId) (hp : some id = some p) : w.Open p := Option.some.inj hp ▸ hid
  have hsound : (w.enter (some id) Table.empty none).Sound units :=
    h.enter hparent (fun _ hf => nomatch hf) (fun _ _ hv => nomatch hv)
  exact ⟨_, rfl, hsound, before_enter, open_enter hparent,
    fun x hx => runs_enter hx.occurs (fun p hp => Option.some.inj hp ▸ hx) (fun _ hf => nomatch hf)⟩

/-- A scope for a call, inside the one that the function was made in. -/
theorem newCall {f : Closure} {args : List Value} (hf : Runs units w f.scope (.function f.function))
    (hlength : args.length = f.arity) :
    let next := w.store.newScope (some f.scope) (bindParams f.function.params args)
    (World.calls units).Next w next.2 fun w' => Runs units w' next.1 (.block f.function.body) := by
  have hparams : f.function.ParamsFree := hf.occurs.nameFree
  have hnames := Table.names_bindParams hparams.nodup hlength
  have hreserved (k : Keyword) (v : Value)
      (hv : (bindParams f.function.params args).get? k.text = some v) :
      k = .selfWord ∧ ∃ g, some f = some g ∧ g.function.DeclaresSelf := by
    have hmem : k.text ∈ f.function.params.map Ident.name := by
      rw [← hnames, Table.mem_names_iff, hv]
      rfl
    obtain ⟨hk, hself⟩ := hparams.reserved hmem
    exact ⟨hk, f, rfl, hself⟩
  have hsound := h.enter (fun _ hp => Option.some.inj hp ▸ hf.isOpen)
    (fun _ hg => Option.some.inj hg ▸ ⟨hf.occurs, rfl, hnames ▸ List.prefix_rfl⟩) hreserved
  have hbody : Runs units w f.scope (.block f.function.body) := hf.child List.mem_cons_self
  exact ⟨_, rfl, hsound, before_enter, runs_enter hbody.occurs
    (fun _ hp => Option.some.inj hp ▸ hbody) (fun _ hg => Option.some.inj hg ▸ .refl _)⟩

/-- A scope inside no other. -/
theorem newRoot : let next := w.store.newScope none Table.empty
    (World.calls units).Next w next.2 fun w' =>
      w'.Open next.1 ∧ ∀ x : Node, x.OccursIn units → Runs units w' next.1 x := by
  have hparent (p : ScopeId) (hp : none = some p) : w.Open p := nomatch hp
  have hsound : (w.enter none Table.empty none).Sound units :=
    h.enter hparent (fun _ hf => nomatch hf) (fun _ _ hv => nomatch hv)
  exact ⟨w.enter none Table.empty none, rfl, hsound, before_enter, open_enter hparent,
    fun x hx => runs_enter hx (fun _ hp => nomatch hp) (fun _ hf => nomatch hf)⟩

end CallRecord.Sound

/-- Code of the units runs inside the functions that it stands in, and functions are made there. -/
def Discipline.calls (units : SourceUnit → Prop) : Discipline where
  toWorld := .calls units
  Source := units
  Closure w f := CallRecord.Runs units w f.scope (.function f.function)
  Fields _ _ := True
  Open := CallRecord.Open
  Runs := CallRecord.Runs units
  closure_mono hw hf := hf.mono hw
  fields_mono _ hi := hi
  open_mono hw hid := hid.mono hw
  runs_mono hw hx := hx.mono hw
  open_of_runs hx := hx.isOpen
  runs_child hx hy := hx.child hy
  closure hw hf _ :=
    have ⟨w', hstore, hsound, hlater, _⟩ := hw.newObject
    ⟨w', hstore, hsound, hlater, hf.mono hlater⟩
  define hw hx hbinds := hw.define fun _ hk => hbinds.reserved hx.occurs hk
  assign v hw hx := by
    rw [Store.assign_eq_define]
    exact hw.define_free hx.occurs.nameFree
  field v hw hx _ := hw.define_free hx.occurs.nameFree
  inner hw hid := hw.newInner hid
  call _ hw hf hlength := hw.newCall hf hlength
  root hw :=
    have ⟨w', hstore, hsound, hlater, hopen, hruns⟩ := hw.newRoot
    ⟨w', hstore, hsound, hlater, hopen, fun source program hsource hprogram stmt hstmt =>
      hruns _ ⟨source, program, stmt, hsource, hprogram, hstmt, .refl _⟩⟩
  fields _ hw :=
    have ⟨w', hstore, hsound, hlater, _⟩ := hw.newRoot
    ⟨w', hstore, hsound, hlater, trivial⟩
  newObject hw := hw.newObject
  addModule module hw := hw.addModule module

/-! ### Dialogues -/

/-- The modules that are found are among the units. -/
def Setting.IsFrom (units : SourceUnit → Prop) (setting : Setting) : Prop :=
  ∀ name found, setting.resolve name = .ok found → units ⟨found.key, found.text⟩

/-- The request brings in code of the units only, and binds nothing itself. -/
def Request.IsFrom (units : SourceUnit → Prop) : Request → Prop
  | .evaluate source _ => units source
  | .run program _ _ => ∃ source, units source ∧ Program.parse source = .ok program
  | .call _ _ _ | .load _ | .newRoot | .newChild _ => True
  | .define _ _ _ => False

/-- A reserved word is bound in the scope of a call, if it is the word for the receiver and the function
declares that, or else to a module that is loaded under this name. -/
def Store.KeepsReserved (units : SourceUnit → Prop) (s : Store) : Prop :=
  ∀ (id : ScopeId) (k : Keyword) (v : Value), (s.bindings id).get? k.text = some v →
    (k = .selfWord ∧ ∃ f, s.IsCallOf units id f ∧ f.function.DeclaresSelf) ∨
      (∃ ref, v = .module ref) ∧ LoadsAs units k.text

/-- The code stands in a function of the units that declares the receiver, and runs in a call of it. -/
def Moment.HasSelf (units : SourceUnit → Prop) (y : Moment) : Prop :=
  ∃ c f, y.machine.store.Outwards y.scope c ∧ y.machine.store.IsCallOf units c f ∧
    f.function.DeclaresSelf ∧ (Node.block f.function.body).Contains y.node

theorem CallRecord.Sound.keepsReserved {units : SourceUnit → Prop} {w : CallRecord}
    (h : w.Sound units) : w.store.KeepsReserved units := by
  intro id k v hv
  obtain ⟨hk, f, hf, hdeclares⟩ | hmodule := h.reserved hv
  · exact .inl ⟨hk, f, h.call hf, hdeclares⟩
  · exact .inr hmodule

/-- The receiver is what the word for it is bound to, or else it is missed. -/
theorem evalExpr_selfRef (host : Host) (scope : ScopeId) (span : Span) (m : Machine) :
    evalExpr host scope (.selfRef span) m =
      match m.store.lookup? scope selfName with
      | some v => .ok v m
      | none => .error (Fault.selfOutsideMethod.at span) m := by
  rw [evalExpr, readSelf, Eval.bind_eq]
  change (match m.store.lookup? scope selfName with
    | some v => (pure v : Eval Value)
    | none => Eval.failAt .selfOutsideMethod span) m = _
  cases m.store.lookup? scope selfName with
  | some v => rfl
  | none => rfl

/-- Where code runs, the word for the receiver is missed, or it is bound for the code. -/
theorem Discipline.Meets.selfRef {units : SourceUnit → Prop} {w : CallRecord} {y : Moment}
    (h : (Discipline.calls units).Meets w y) (host : Host) (span : Span) :
    evalExpr host y.scope (.selfRef span) y.machine =
        .error (Fault.selfOutsideMethod.at span) y.machine ∨
      y.HasSelf units ∨ LoadsAs units selfName ∧
        ∃ ref, evalExpr host y.scope (.selfRef span) y.machine = .ok (.module ref) y.machine := by
  have hsound : w.Sound units := h.describes.fine.shape
  have hruns : w.Runs units y.scope y.node := h.runs
  have hstore : y.machine.store = w.store := h.describes.store.symm
  rw [evalExpr_selfRef, Store.lookup?_eq_bind_owner?, Moment.HasSelf, hstore]
  cases howner : w.store.owner? y.scope selfName with
  | none => exact .inl rfl
  | some c =>
    obtain ⟨v, hv⟩ := Option.isSome_iff_exists.1 (Store.contains_of_owner? howner)
    rw [Option.bind_some, hv]
    refine .inr ?_
    obtain ⟨-, f, hf, hdeclares⟩ | ⟨⟨ref, rfl⟩, hloads⟩ := hsound.reserved (k := .selfWord) hv
    · have hc := hsound.nested.outwards_of_owner? howner
      exact .inl ⟨c, f, hc, hsound.call hf, hdeclares, hruns.inside hc hf⟩
    · exact .inr ⟨hloads, ref, rfl⟩

namespace Dialogue

/-- One request more, with code of some units. -/
def StepFrom (units : SourceUnit → Prop) (x y : Dialogue) : Prop :=
  ∃ setting request, setting.IsFrom units ∧ request.IsFrom units ∧ x.Allows request ∧
    y = x.next setting request

/-- Some requests more, with code of some units. -/
def ReachesFrom (units : SourceUnit → Prop) : Dialogue → Dialogue → Prop :=
  Relation.ReflTransGen (StepFrom units)

section Record

variable {units : SourceUnit → Prop} {w : CallRecord} {x y : Dialogue}

/-- What a dialogue asks for with code of the units may be done. -/
theorem admits_of_isFrom (h : (Discipline.calls units).Knows w x) {request : Request}
    (hfrom : request.IsFrom units) (hallows : x.Allows request) :
    (Discipline.calls units).Admits w request := by
  cases request with
  | evaluate source scope => exact ⟨hfrom, h.given _ hallows⟩
  | run program scope unit =>
    obtain ⟨source, hsource, hprogram⟩ := hfrom
    exact (h.given (.scope scope) hallows).runs source program hsource hprogram
  | newChild scope => exact h.given _ hallows
  | call callee args span => exact ⟨h.value hallows.1, fun v hv => h.value (hallows.2 v hv)⟩
  | define scope name v => exact hfrom.elim
  | load | newRoot => trivial

/-- Calls are recorded from the first request on. -/
theorem exists_record {echo : Bool} (hx : (start echo).ReachesFrom units x) :
    ∃ w, (Discipline.calls units).Knows w x := by
  induction hx with
  | refl =>
    have hempty (id : ScopeId) : (default : Store).around? id = none :=
      Store.around?_eq_none (Nat.zero_le id)
    refine ⟨⟨{}, fun _ => none⟩, .start echo rfl ⟨fun id p hp => ?_, fun hf => ?_, fun hv => ?_⟩⟩
    · cases (hempty id).symm.trans hp
    · cases hf
    · cases hv
  | tail _ hstep ih =>
    obtain ⟨w, hknows⟩ := ih
    obtain ⟨setting, request, hsetting, hfrom, hallows, rfl⟩ := hstep
    obtain ⟨w', -, hknows'⟩ := hknows.next hsetting (admits_of_isFrom hknows hfrom hallows)
    exact ⟨w', hknows'⟩

end Record

/-- **Reserved words are kept.** Whatever is evaluated, called and loaded from some units, no scope binds
a reserved word at any moment, but for two cases: the call of a function that declares the receiver
binds the word for it, and a module may be loaded under such a name. Where the word for the receiver is
evaluated outside of all functions that declare it, it is missed, unless it stands for such a module. -/
theorem reserved_words_kept {units : SourceUnit → Prop} {echo : Bool} {x : Dialogue}
    (hx : (start echo).ReachesFrom units x) :
    x.machine.store.KeepsReserved units ∧
      ∀ setting request y, setting.IsFrom units → request.IsFrom units → x.Allows request →
        request.Visits setting x.machine y →
        y.machine.store.KeepsReserved units ∧ ∀ span, y.node = .expr (.selfRef span) →
          let self := evalExpr (Host.withFrames setting y.frames) y.scope (.selfRef span) y.machine
          self = .error (Fault.selfOutsideMethod.at span) y.machine ∨ y.HasSelf units ∨
            LoadsAs units selfName ∧ ∃ ref, self = .ok (.module ref) y.machine := by
  obtain ⟨w, hknows⟩ := exists_record hx
  have hsound : w.Sound units := hknows.fine.shape
  have hstore : x.machine.store = w.store := hknows.store.symm
  refine ⟨hstore ▸ hsound.keepsReserved, fun setting request y hsetting hfrom hallows hvisits => ?_⟩
  have hfinds : (Discipline.calls units).Finds setting := hsetting
  obtain ⟨w', hmeets⟩ := hknows.visits hfinds (admits_of_isFrom hknows hfrom hallows) hvisits
  have hsound' : w'.Sound units := hmeets.describes.fine.shape
  have hstore' : y.machine.store = w'.store := hmeets.describes.store.symm
  exact ⟨hstore' ▸ hsound'.keepsReserved, fun span _ => hmeets.selfRef _ span⟩

/-- A setting with a module that is named like the receiver. -/
def selfModule : Setting := ⟨4, Library.resolve (Table.ofList [("self", "X = 1")])⟩

/-- A class with a method that gives back the receiver, and an object that is asked for it. -/
def askingUnit : SourceUnit :=
  ⟨"main", "clx Box \x7b fx me(self) \x7b return self \x7d \x7d b = Box() b.me()"⟩

/-- A unit that loads the module. -/
def loadingUnit : SourceUnit := ⟨"main", "load(\"self\")"⟩

/-- The word for the receiver, outside of any function. -/
def selfUnit : SourceUnit := ⟨"main", "self"⟩

/-- A unit has been evaluated in a new scope. -/
def evaluated (source : SourceUnit) : Dialogue :=
  ((start false).next selfModule .newRoot).next selfModule (.evaluate source 0)

theorem reaches_evaluated (source : SourceUnit) :
    (start false).ReachesFrom (fun _ => True) (evaluated source) := by
  have hnew : (start false).ReachesFrom (fun _ => True) ((start false).next selfModule .newRoot) :=
    .single ⟨selfModule, .newRoot, fun _ _ _ => trivial, trivial, trivial, rfl⟩
  exact hnew.tail ⟨selfModule, .evaluate source 0, fun _ _ _ => trivial, trivial, List.mem_cons_self,
    rfl⟩

theorem scope_mem_given (source : SourceUnit) : .scope 0 ∈ (evaluated source).given := by
  rw [evaluated, next]
  split
  · exact List.mem_cons_of_mem _ List.mem_cons_self
  · exact List.mem_cons_self

/-- The moment at which the word is evaluated. -/
def selfMoment (m : Machine) : Moment where
  frames := selfModule.maxFrames - m.depth
  scope := 0
  node := .expr (.selfRef ⟨⟨1, 1⟩, ⟨1, 5⟩⟩)
  machine := { m with unit := "main" }

theorem visits_selfMoment (m : Machine) :
    (Request.evaluate selfUnit 0).Visits selfModule m (selfMoment m) := by
  have htokens : tokenize "self" =
      .ok ⟨[⟨.keyword .selfWord, ⟨1, 1⟩, ⟨1, 5⟩⟩], ⟨⟨1, 5⟩, ⟨1, 5⟩⟩⟩ := by
    rw [tokenize, tokensFrom_cons rfl rfl (tokensFrom_end rfl)]
    rfl
  have hprogram : Program.parse selfUnit =
      .ok ⟨[.expr (.selfRef ⟨⟨1, 1⟩, ⟨1, 5⟩⟩)], ⟨⟨1, 1⟩, ⟨1, 5⟩⟩⟩ := by
    rw [Program.parse, selfUnit, htokens]
    rfl
  have first {m' : Machine} {x : Node} {xs : List Node} {frames : Nat} :
      Moment.Among selfModule frames 0 (x :: xs) m' ⟨frames, 0, x, m'⟩ :=
    .intro (List.nil_append (x :: xs)).symm .nil
  exact ⟨_, .evaluate hprogram first, .single (.part rfl first)⟩

/-- The call of the method has left a scope that binds the receiver. Outside of the method the word is
evaluated as well. -/
theorem reserved_words_kept_asking :
    let x := evaluated askingUnit
    let y := selfMoment x.machine
    let self := evalExpr (Host.withFrames selfModule y.frames) y.scope
      (.selfRef ⟨⟨1, 1⟩, ⟨1, 5⟩⟩) y.machine
    (start false).ReachesFrom (fun _ => True) x ∧
      (x.machine.store.bindings 2).contains selfName = true ∧
      x.machine.store.KeepsReserved (fun _ => True) ∧
      y.machine.store.KeepsReserved (fun _ => True) ∧
      (self = .error (Fault.selfOutsideMethod.at ⟨⟨1, 1⟩, ⟨1, 5⟩⟩) y.machine ∨
        y.HasSelf (fun _ => True) ∨
        LoadsAs (fun _ => True) selfName ∧ ∃ ref, self = .ok (.module ref) y.machine) := by
  intro x y self
  have hreaches : (start false).ReachesFrom (fun _ => True) x := reaches_evaluated askingUnit
  obtain ⟨hkeeps, hvisited⟩ := reserved_words_kept hreaches
  obtain ⟨hkeeps', hself⟩ := hvisited selfModule (.evaluate selfUnit 0) y (fun _ _ _ => trivial)
    trivial (scope_mem_given askingUnit) (visits_selfMoment x.machine)
  exact ⟨hreaches, by decide +kernel, hkeeps, hkeeps', hself _ rfl⟩

/-- A load binds the word for the receiver, outside of all calls; and where it is evaluated there, it is
not missed. -/
theorem not_reserved_words_unbound :
    (¬∀ (units : SourceUnit → Prop) (echo : Bool) (x : Dialogue), (start echo).ReachesFrom units x →
      ∀ (id : ScopeId) (k : Keyword) (v : Value), (x.machine.store.bindings id).get? k.text = some v →
        k = .selfWord ∧ ∃ f, x.machine.store.IsCallOf units id f ∧ f.function.DeclaresSelf) ∧
    ¬∀ (units : SourceUnit → Prop) (echo : Bool) (x : Dialogue), (start echo).ReachesFrom units x →
      ∀ setting request y, setting.IsFrom units → request.IsFrom units → x.Allows request →
        request.Visits setting x.machine y → ∀ span, y.node = .expr (.selfRef span) →
          ¬y.HasSelf units →
          evalExpr (Host.withFrames setting y.frames) y.scope (.selfRef span) y.machine =
            .error (Fault.selfOutsideMethod.at span) y.machine := by
  have hreaches := reaches_evaluated loadingUnit
  have hroot : (evaluated loadingUnit).machine.store.around? 0 = none := by decide +kernel
  refine ⟨fun h => ?_, fun h => ?_⟩
  · have hbound : ((evaluated loadingUnit).machine.store.bindings 0).contains selfName = true := by
      decide +kernel
    obtain ⟨v, hv⟩ := Option.isSome_iff_exists.1 hbound
    obtain ⟨-, f, hf, -⟩ := h _ _ _ hreaches 0 .selfWord v hv
    have haround := hf.around
    rw [hroot] at haround
    cases haround
  · let y := selfMoment (evaluated loadingUnit).machine
    have houtside : ¬y.HasSelf fun _ => True := by
      rintro ⟨c, f, hc, hf, -⟩
      -- Nothing lies around the scope, so it is not one of a call.
      obtain rfl | ⟨b, hb, -⟩ := Relation.ReflTransGen.cases_head hc
      · exact absurd (hroot.symm.trans hf.around) (Option.some_ne_none _).symm
      · exact absurd (hroot.symm.trans hb) (Option.some_ne_none _).symm
    have herror := h _ _ _ hreaches selfModule (.evaluate selfUnit 0) y (fun _ _ _ => trivial) trivial
      (scope_mem_given loadingUnit) (visits_selfMoment _) _ rfl houtside
    have hfound : ((evaluated loadingUnit).machine.store.lookup? 0 selfName).isSome = true := by
      decide +kernel
    obtain ⟨v, hv⟩ := Option.isSome_iff_exists.1 hfound
    rw [evalExpr_selfRef, show y.machine.store.lookup? y.scope selfName = some v from hv] at herror
    cases herror

end Dialogue

end ScriptLang
