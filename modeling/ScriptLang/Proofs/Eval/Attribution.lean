import ScriptLang.Proofs.Eval.Blame

/-!
# Code gets the blame for its own faults only

The code of a unit makes functions of the unit, and ends with faults that lie at its places or have
got their unit further in. Where the evaluator asks its host for a call or a load, the fault of the
request itself lies at the call or at the path of the load; whatever else goes wrong inside has its
unit already, since bodies of functions and programs of modules are run on behalf of the unit that
they come from.

## Main definitions

* `Resolver.Silent`: the resolver does not know where its faults come from
* `Blame.HostKeeps`: calls and loads leave all functions in the store known, and their faults lie at
  the request or have their unit

## Main results

* `Blame.runStmts_keeps`: code on such a host has faults of its own, or faults with their unit
* `Blame.withFrames_keeps`: the host with any number of frames is one
-/

namespace ScriptLang

/-- The reports of the resolver say neither where the fault lies nor which unit it came from. -/
def Resolver.Silent (resolve : Resolver) : Prop :=
  ∀ name d, resolve name = .error d → d.Placeless

namespace Blame

variable {B : Blame} {host : Host} {unit : String} {places : List Place} {j : Journal}

/-- The calls and loads of the host leave all functions in the store known. -/
structure HostKeeps (B : Blame) (host : Host) : Prop where
  call {j : Journal} {unit : String} {callee : ScriptLang.Value} {args : List ScriptLang.Value}
    {span : Span} : B.Value j callee → B.Values j args →
    B.Keeps j unit (host.call callee args span) B.Value (B.Fault [.call span])
  load {j : Journal} {unit : String} {name : String} :
    B.Keeps j unit (host.load name) Any B.LoadFault

theorem value_nil : B.Value j .nil := trivial

theorem values_receiver {v : ScriptLang.Value} (h : B.Value j v) : B.Values j (some v).toList :=
  List.forall_mem_singleton.2 h

theorem value_module (m : ModuleRef) : B.Value j (.module m) := trivial

/-! ### Elementary steps -/

theorem lookup_keeps (scope : ScopeId) (name : String) :
    B.Keeps j unit (Eval.readStore (·.lookup? scope name))
      (fun j found => ∀ v, found = some v → B.Value j v) (B.Fault places) :=
  .readStore fun _ hs _ hv => hs.lookup? hv

theorem readName_keeps {scope : ScopeId} {name : String} {span : Span}
    (hplace : .node span ∈ places) :
    B.Keeps j unit (readName scope name span) B.Value (B.Fault places) := by
  refine (lookup_keeps scope name).bind fun found j' _ hfound => ?_
  cases found with
  | some v => exact .pure (hfound v rfl)
  | none =>
    cases Builtin.ofName? name with
    | some b => exact .pure trivial
    | none => exact .failAt hplace rfl

theorem readSelf_keeps {scope : ScopeId} {span : Span} (hplace : .node span ∈ places) :
    B.Keeps j unit (readSelf scope span) B.Value (B.Fault places) := by
  refine (lookup_keeps scope selfName).bind fun found j' _ hfound => ?_
  cases found with
  | some v => exact .pure (hfound v rfl)
  | none => exact .failAt hplace rfl

section Members

variable {member : Ident} (hplace : .name member.span ∈ places)
include hplace

theorem readField_keeps {i : Instance} (hi : B.Value j (.object i)) :
    B.Keeps j unit (readField i member) B.Value (B.Fault places) := by
  have hread : B.Keeps j unit (Eval.readStore fun s => (s.bindings i.fields).get? member.name)
      (fun j found => ∀ v, found = some v → B.Value j v) (B.Fault places) :=
    .readStore fun s hs v hv => hs.bindings i.fields member.name v hv
  refine hread.bind fun found j' hj hfound => ?_
  cases found with
  | some v => exact .pure (hfound v rfl)
  | none =>
    cases hmethod : i.ofClass.methods.get? member.name with
    | some method =>
      -- A method is bound to the object, whose class has become known before.
      have hclass := Value.mono hj hi
      exact .pure ⟨hclass member.name method hmethod, hclass⟩
    | none => exact .failAt hplace rfl

theorem readExport_keeps {m : ModuleRef} :
    B.Keeps j unit (readExport m member) B.Value (B.Fault places) := by
  have hread : B.Keeps j unit (Eval.readStore (·.module? m))
      (fun j found => ∀ module, found = some module → module.members.All (B.Value j))
      (B.Fault places) :=
    .readStore fun s hs module hmodule => hs.members m module hmodule
  refine hread.bind fun found j' _ hfound => ?_
  cases found with
  | some module =>
    refine .ofExceptAt hplace (module.read?_outcome member.name) fun v hv => ?_
    exact hfound module rfl member.name v hv
  | none => exact .failAt hplace rfl

theorem readMember_keeps {object : ScriptLang.Value} (hobject : B.Value j object) :
    B.Keeps j unit (readMember object member) B.Value (B.Fault places) := by
  cases object with
  | object i => exact readField_keeps hplace hobject
  | ofClass c =>
    rw [readMember]
    cases hmethod : c.methods.get? member.name with
    | some method => exact .pure (hobject member.name method hmethod)
    | none => exact .failAt hplace rfl
  | module m => exact readExport_keeps hplace
  | _ => exact .failAt hplace rfl

theorem writeMember_keeps {object v : ScriptLang.Value} (hv : B.Value j v) :
    B.Keeps j unit (writeMember object member v) B.Value (B.Fault places) := by
  cases object with
  | object i => exact (Keeps.define hv).bind fun _ _ hj _ => .pure (Value.mono hj hv)
  | _ => exact .failAt hplace rfl

end Members

theorem applyUnary_keeps {op : UnaryOp} {v : ScriptLang.Value} {span : Span}
    (hplace : .node span ∈ places) :
    B.Keeps j unit (applyUnary op v span) B.Value (B.Fault places) := by
  cases op with
  | not => exact .pure trivial
  | negate => exact .ofExceptAt hplace v.negate?_outcome fun _ => Value.all_of_isData

theorem applyBinary_keeps {op : BinaryOp} {left right : ScriptLang.Value} {span : Span}
    (hplace : .node span ∈ places) (hright : B.Value j right) :
    B.Keeps j unit (applyBinary op left right span) B.Value (B.Fault places) := by
  unfold applyBinary
  split
  · exact .pure hright
  · exact .pure hright
  · exact .ofExceptAt hplace (Value.binary?_outcome _ left right) fun _ => Value.all_of_isData

/-- A function is code of the unit that its definition is code of. -/
theorem newClosure_keeps {scope : ScopeId} {name? : Option String} {function : Lambda}
    (code : B.Code j unit function.places) :
    B.Keeps j unit (newClosure scope name? function) B.Known (B.Fault places) := by
  refine Keeps.newObject.bind fun id j' hj _ => ?_
  refine Keeps.unitName.bind fun name j'' hj' hname => ?_
  subst hname
  exact .pure (later (hj.trans hj') code)

theorem newMethods_keeps {scope : ScopeId} {methods : List Definition} {table : Table Closure}
    (code : B.Code j unit places) (hsub : Definition.placesOfMethods methods ⊆ places)
    (htable : table.All (B.Known j)) :
    B.Keeps j unit (newMethods scope methods table) (fun j table => table.All (B.Known j))
      (B.Fault places) := by
  induction methods generalizing j table with
  | nil => exact .pure htable
  | cons d ds ih =>
    obtain ⟨name, function⟩ := d
    rw [Definition.placesOfMethods, List.append_subset] at hsub
    have hfunction := part hsub.1 code
    refine (newClosure_keeps hfunction).bind fun method j' hj hmethod => ?_
    have htable' : table.All (B.Known j') := fun name f hf => Known.mono hj (htable name f hf)
    exact ih (later hj code) hsub.2 (htable'.insert hmethod)

theorem declareClass_keeps {scope : ScopeId} {name : String} {methods : List Definition}
    (code : B.Code j unit places) (hsub : Definition.placesOfMethods methods ⊆ places) :
    B.Keeps j unit (declareClass scope name methods) B.Value (B.Fault places) := by
  refine (newMethods_keeps code hsub .empty).bind fun table j₁ _ htable => ?_
  refine Keeps.newObject.bind fun id j₂ h₂ _ => ?_
  have hclass : B.Value j₂ (.ofClass ⟨id, name, table⟩) :=
    fun member f hf => Known.mono h₂ (htable member f hf)
  refine (Keeps.define hclass).bind fun _ j₃ h₃ _ => ?_
  exact .pure (Value.mono h₃ hclass)

theorem defineFunction_keeps {scope : ScopeId} {d : Definition} (code : B.Code j unit places)
    (hsub : d.places ⊆ places) :
    B.Keeps j unit (defineFunction scope d) B.Value (B.Fault places) := by
  obtain ⟨name, function⟩ := d
  have hfunction := part hsub code
  refine (newClosure_keeps hfunction).bind fun f j₁ _ hf => ?_
  have hvalue : B.Value j₁ (.function f) := hf
  refine (Keeps.define hvalue).bind fun _ j₂ h₂ _ => ?_
  exact .pure (Value.mono h₂ hvalue)

/-- A built-in does not know where it is called. -/
theorem runBuiltin_keeps {b : Builtin} {args : List ScriptLang.Value} {span : Span} :
    B.Keeps j unit (b.run args) B.Value fun j d =>
      B.Named j d ∨ d.Placeless ∧ (Place.call span).fits d.kind = true := by
  have houtcome : B.Keeps j unit (Eval.ofExcept (b.outcome? args)) (fun _ r => r.1.isData = true)
      fun j d => B.Named j d ∨ d.Placeless ∧ (Place.call span).fits d.kind = true := by
    refine (Keeps.ofExcept (b.outcome?_outcome args)).mono_fault fun _ d _ hd => .inr ⟨hd.1, ?_⟩
    obtain hkind | hkind := hd.2 <;> simp [Place.fits, hkind]
  refine houtcome.bind fun result j₁ _ hdata => ?_
  obtain ⟨v, line⟩ := result
  cases line with
  | some line => exact (Keeps.print line).bind fun _ _ _ _ => .pure (Value.all_of_isData hdata)
  | none => exact .pure (Value.all_of_isData hdata)

/-! ### Expressions and statements

The recursion is that of the evaluator, over the tree. The code is given as a whole, so that what is
known of it serves every part of it. -/

mutual

theorem evalExpr_keeps (hosts : B.HostKeeps host) {j : Journal} (code : B.Code j unit places)
    (scope : ScopeId) : ∀ e : Expr, e.places ⊆ places →
      B.Keeps j unit (evalExpr host scope e) B.Value (B.Fault places)
  | .int _ _, _ | .float _ _, _ | .string _ _, _ | .bool _ _, _ | .nil _, _ => .pure trivial
  | .selfRef span, hsub => readSelf_keeps (hsub List.mem_cons_self)
  | .name span name, hsub => readName_keeps (hsub List.mem_cons_self)
  | .unary span op operand, hsub => by
    obtain ⟨hplace, hoperand⟩ := List.cons_subset.1 hsub
    exact (evalExpr_keeps hosts code scope operand hoperand).bind fun _ _ _ _ =>
      applyUnary_keeps hplace
  | .binary span left op right, hsub => by
    obtain ⟨hplace, hoperands⟩ := List.cons_subset.1 hsub
    obtain ⟨hleft, hright⟩ := List.append_subset.1 hoperands
    refine (evalExpr_keeps hosts code scope left hleft).bind fun l j₁ h₁ hl => ?_
    by_cases decided : isDecided op l = true
    · simp only [if_pos decided]
      exact .pure hl
    · simp only [if_neg decided]
      have code₁ := later h₁ code
      refine (evalExpr_keeps hosts code₁ scope right hright).bind fun r j₂ h₂ hr => ?_
      exact applyBinary_keeps hplace hr
  -- Here the evaluator asks its host.
  | .call span callee args, hsub => by
    obtain ⟨hplace, hoperands⟩ := List.cons_subset.1 hsub
    obtain ⟨hcallee, hargs⟩ := List.append_subset.1 hoperands
    refine (evalExpr_keeps hosts code scope callee hcallee).bind fun f j₁ h₁ hf => ?_
    have code₁ := later h₁ code
    refine (evalArgs_keeps hosts code₁ scope args hargs).bind fun vs j₂ h₂ hvs => ?_
    have hcall : B.Keeps j₂ unit (host.call f vs span) B.Value (B.Fault [.call span]) :=
      hosts.call (Value.mono h₂ hf) hvs
    exact hcall.mono_fault fun _ _ _ => Fault.mono (by simpa using hplace)
  | .member span object member, hsub => by
    obtain ⟨-, hrest⟩ := List.cons_subset.1 hsub
    obtain ⟨hplace, hobject⟩ := List.cons_subset.1 hrest
    refine (evalExpr_keeps hosts code scope object hobject).bind fun v j₁ h₁ hv => ?_
    exact readMember_keeps hplace hv
  | .assignName span target value, hsub => by
    obtain ⟨-, hrest⟩ := List.cons_subset.1 hsub
    obtain ⟨-, hvalue⟩ := List.cons_subset.1 hrest
    refine (evalExpr_keeps hosts code scope value hvalue).bind fun v j₁ h₁ hv => ?_
    exact (Keeps.assign hv).bind fun _ j₂ h₂ _ => .pure (Value.mono h₂ hv)
  | .assignMember span object member value, hsub => by
    obtain ⟨-, hrest⟩ := List.cons_subset.1 hsub
    obtain ⟨hplace, hoperands⟩ := List.cons_subset.1 hrest
    obtain ⟨hobject, hvalue⟩ := List.append_subset.1 hoperands
    refine (evalExpr_keeps hosts code scope object hobject).bind fun o j₁ h₁ ho => ?_
    have code₁ := later h₁ code
    refine (evalExpr_keeps hosts code₁ scope value hvalue).bind fun v j₂ h₂ hv => ?_
    exact writeMember_keeps hplace hv
  | .lambda span function, hsub => by
    obtain ⟨-, hfunction⟩ := List.cons_subset.1 hsub
    refine (newClosure_keeps (part hfunction code)).bind fun f j₁ h₁ hf => ?_
    exact .pure hf

theorem evalArgs_keeps (hosts : B.HostKeeps host) {j : Journal} (code : B.Code j unit places)
    (scope : ScopeId) : ∀ es : List Expr, Expr.placesOfArgs es ⊆ places →
      B.Keeps j unit (evalArgs host scope es) B.Values (B.Fault places)
  | [], _ => .pure (by simp [Values])
  | e :: es, hsub => by
    obtain ⟨he, hes⟩ := List.append_subset.1 hsub
    refine (evalExpr_keeps hosts code scope e he).bind fun v j₁ h₁ hv => ?_
    have code₁ := later h₁ code
    refine (evalArgs_keeps hosts code₁ scope es hes).bind fun vs j₂ h₂ hvs => ?_
    exact .pure (List.forall_mem_cons.2 ⟨Value.mono h₂ hv, hvs⟩)

end

/-- Here it asks again: a load that fails without a place has failed at its path. -/
theorem loadModules_keeps (hosts : B.HostKeeps host) {scope : ScopeId} {paths : List ModulePath}
    (hsub : paths.map (.path ·.span) ⊆ places) {last : ScriptLang.Value} (hlast : B.Value j last) :
    B.Keeps j unit (loadModules host scope paths last) B.Value (B.Fault places) := by
  induction paths generalizing j last with
  | nil => exact .pure hlast
  | cons p ps ih =>
    rw [List.map_cons, List.cons_subset] at hsub
    have hload : B.Keeps j unit (host.load p.path) Any fun j d =>
        B.Named j d ∨ d.Placeless ∧ (Place.path p.span).fits d.kind = true :=
      hosts.load.mono_fault fun _ _ _ hd => hd.imp_right fun hd => ⟨hd, rfl⟩
    refine (Keeps.withSpan hsub.1 hload).bind fun m j₁ _ _ => ?_
    refine (Keeps.define (value_module m)).bind fun _ j₂ _ _ => ?_
    exact ih hsub.2 (value_module m)

/-- The value that the statements ended with is known. -/
def Completed (B : Blame) (j : Journal) : Completion → Prop
  | .finished v | .returned v => B.Value j v

mutual

theorem runStmt_keeps (hosts : B.HostKeeps host) {j : Journal} (code : B.Code j unit places)
    (scope : ScopeId) : ∀ s : Stmt, s.places ⊆ places →
      B.Keeps j unit (runStmt host scope s) B.Completed (B.Fault places)
  | .define _, hsub => (defineFunction_keeps code hsub).bind fun _ _ _ hv => .pure hv
  | .declareClass _ _ _, hsub =>
    (declareClass_keeps code hsub).bind fun _ _ _ hv => .pure hv
  | .conditional c, hsub => runConditional_keeps hosts code scope c hsub
  | .giveBack none _, _ => .pure trivial
  | .giveBack (some e) _, hsub =>
    (evalExpr_keeps hosts code scope e hsub).bind fun _ _ _ hv => .pure hv
  | .load _ _, hsub =>
    (loadModules_keeps hosts hsub value_nil).bind fun _ _ _ hv => .pure hv
  | .package _ _, _ => .pure trivial
  | .block body, hsub => runBlock_keeps hosts code scope body hsub
  | .expr e, hsub => (evalExpr_keeps hosts code scope e hsub).bind fun _ _ _ hv => .pure hv

theorem runStmts_keeps (hosts : B.HostKeeps host) {j : Journal} (code : B.Code j unit places)
    (scope : ScopeId) : ∀ (stmts : List Stmt) (last : ScriptLang.Value),
      Stmt.placesOfStmts stmts ⊆ places → B.Value j last →
        B.Keeps j unit (runStmts host scope stmts last) B.Completed (B.Fault places)
  | [], _, _, hlast => .pure hlast
  | s :: rest, _, hsub, _ => by
    obtain ⟨hs, hrest⟩ := List.append_subset.1 hsub
    refine (runStmt_keeps hosts code scope s hs).bind fun completion j₁ h₁ hcompletion => ?_
    cases completion with
    | finished v => exact runStmts_keeps hosts (later h₁ code) scope rest v hrest hcompletion
    -- The rest is left out.
    | returned v => exact .pure hcompletion

theorem runBlock_keeps (hosts : B.HostKeeps host) {j : Journal} (code : B.Code j unit places)
    (scope : ScopeId) : ∀ b : Block, b.places ⊆ places →
      B.Keeps j unit (runBlock host scope b) B.Completed (B.Fault places)
  | .mk stmts _, hsub =>
    (Keeps.newScope _ .empty).bind fun inner _ h₁ _ =>
      runStmts_keeps hosts (later h₁ code) inner stmts .nil hsub value_nil

theorem runConditional_keeps (hosts : B.HostKeeps host) {j : Journal}
    (code : B.Code j unit places) (scope : ScopeId) : ∀ c : Conditional, c.places ⊆ places →
      B.Keeps j unit (runConditional host scope c) B.Completed (B.Fault places)
  | .mk condition thenBlock otherwise _, hsub => by
    obtain ⟨hcondition, hbranches⟩ := List.append_subset.1 hsub
    obtain ⟨hthen, hotherwise⟩ := List.append_subset.1 hbranches
    refine (evalExpr_keeps hosts code scope condition hcondition).bind fun v j₁ h₁ _ => ?_
    by_cases truthy : v.isTruthy = true
    · simp only [if_pos truthy]
      exact runBlock_keeps hosts (later h₁ code) scope thenBlock hthen
    · simp only [if_neg truthy]
      exact runElse_keeps hosts (later h₁ code) scope otherwise hotherwise

theorem runElse_keeps (hosts : B.HostKeeps host) {j : Journal} (code : B.Code j unit places)
    (scope : ScopeId) : ∀ b : ElseBranch, b.places ⊆ places →
      B.Keeps j unit (runElse host scope b) B.Completed (B.Fault places)
  | .absent, _ => .pure trivial
  | .block body, hsub => runBlock_keeps hosts code scope body hsub
  | .elseIf c, hsub => runConditional_keeps hosts code scope c hsub

end

/-! ### Calls and units -/

/-- A call that is refused. -/
theorem failCall_keeps {fault : ScriptLang.Fault} {span : Span}
    {value : Journal → ScriptLang.Value → Prop} (hfits : (Place.call span).fits fault.kind = true) :
    B.Keeps j unit (Eval.failAt fault span) value (B.Fault [.call span]) := by
  have hplace : Place.call span ∈ [Place.call span] := List.mem_singleton_self _
  exact .failAt hplace hfits

/-- Every fault of code gets the unit of the code in the end. -/
def Complete (B : Blame) : Prop :=
  ∀ {j : Journal} {unit : String} {places : List Place} {d : Diagnostic},
    B.Code j unit places → d.LiesAt places → B.Named j (d.withUnit unit)

section Calls

variable (complete : B.Complete) (hosts : B.HostKeeps host)
include complete hosts

/-- Code of another unit is run: whatever goes wrong in it has its unit afterwards. -/
theorem inUnit_keeps {inner : String} {stmts : List Stmt} {scope : ScopeId}
    (code : B.Code j inner (Stmt.placesOfStmts stmts)) :
    B.Keeps j unit (Eval.inUnit inner (runStmts host scope stmts .nil)) B.Completed B.Named := by
  have hbody := runStmts_keeps hosts code scope stmts .nil (List.Subset.refl _) value_nil
  refine (Keeps.inUnit hbody).mono_fault fun j' d hj hd => ?_
  obtain hnamed | ⟨d', hlies, rfl⟩ := hd
  · exact hnamed
  · exact complete (later hj code) hlies

theorem invoke_keeps {f : Closure} {receiver : Option ScriptLang.Value}
    {args : List ScriptLang.Value} {span : Span} (hf : B.Known j f)
    (hreceiver : B.Values j receiver.toList) (hargs : B.Values j args) :
    B.Keeps j unit (invoke host f receiver args span) B.Value (B.Fault [.call span]) := by
  rw [invoke]
  by_cases mismatch : (receiver.toList ++ args).length ≠ f.arity
  · simp only [if_pos mismatch]
    refine failCall_keeps ?_
    unfold arityFault
    split <;> rfl
  · simp only [if_neg mismatch]
    have hparams : (bindParams f.function.params (receiver.toList ++ args)).All (B.Value j) :=
      .bindParams (List.forall_mem_append.2 ⟨hreceiver, hargs⟩)
    refine (Keeps.newScope _ hparams).bind fun scope j₁ h₁ _ => ?_
    -- The body is code of the unit that the function comes from, whoever calls it.
    have code : B.Code j₁ f.origin (Stmt.placesOfStmts f.function.body.stmts) :=
      part f.function.placesOfStmts_body_subset (later h₁ hf)
    have hbody : B.Keeps j₁ unit
        (Eval.inUnit f.origin (runStmts host scope f.function.body.stmts .nil)) B.Completed
        (B.Fault [.call span]) :=
      (inUnit_keeps complete hosts code).mono_fault fun _ _ _ => .inl
    refine hbody.bind fun completion j₂ _ hcompletion => ?_
    cases completion with
    | finished v => exact .pure value_nil
    | returned v => exact .pure hcompletion

theorem instantiate_keeps {c : Class} {args : List ScriptLang.Value} {span : Span}
    (hc : c.All (B.Known j)) (hargs : B.Values j args) :
    B.Keeps j unit (instantiate host c args span) B.Value (B.Fault [.call span]) := by
  refine (Keeps.newScope none .empty).bind fun fields j₁ h₁ _ => ?_
  -- All functions that an object has at first are the methods of its class.
  have hobject : B.Value j₁ (.object ⟨c, fields⟩) := fun name f hf => Known.mono h₁ (hc name f hf)
  cases hinit : c.methods.get? initName with
  | some init =>
    have hmethod : B.Known j₁ init := hobject initName init hinit
    refine (invoke_keeps complete hosts hmethod (values_receiver hobject)
      (Values.mono h₁ hargs)).bind fun _ j₂ h₂ _ => ?_
    exact .pure (Value.mono h₂ hobject)
  | none =>
    cases args with
    | nil => exact .pure hobject
    | cons _ _ => exact failCall_keeps rfl

theorem applyValue_keeps {callee : ScriptLang.Value} {args : List ScriptLang.Value} {span : Span}
    (hcallee : B.Value j callee) (hargs : B.Values j args) :
    B.Keeps j unit (applyValue host callee args span) B.Value (B.Fault [.call span]) := by
  cases callee with
  | function f => exact invoke_keeps complete hosts hcallee (by simp [Values]) hargs
  | method m =>
    have hobject : B.Value j (.object m.receiver) := hcallee.2
    exact invoke_keeps complete hosts hcallee.1 (values_receiver hobject) hargs
  | builtin b =>
    have hplace : Place.call span ∈ [Place.call span] := List.mem_singleton_self _
    exact .withSpan hplace runBuiltin_keeps
  | ofClass c => exact instantiate_keeps complete hosts hcallee hargs
  | _ => exact failCall_keeps rfl

theorem runProgram_keeps {program : Program} {scope : ScopeId} {name : String}
    (code : B.Code j name program.places) :
    B.Keeps j unit (runProgram host program scope name) B.Value B.Named := by
  refine (inUnit_keeps complete hosts code).bind fun completion j₁ _ hcompletion => ?_
  cases completion with
  | finished v => exact .pure hcompletion
  | returned v => exact .pure hcompletion

/-- The unit is accounted for: its code if it can be read, and what is wrong with it if not. -/
def Read (B : Blame) (j : Journal) (source : SourceUnit) : Prop :=
  match Program.parse source with
  | .ok program => B.Code j source.name program.places
  | .error d => B.Named j d

theorem evalModule_keeps {name : String} {source : SourceUnit} (hread : B.Read j source) :
    B.Keeps j unit (evalModule host name source)
      (fun j module => module.members.All (B.Value j)) B.Named := by
  rw [evalModule]
  rw [Read] at hread
  cases hparse : Program.parse source with
  | error d =>
    rw [hparse] at hread
    exact .throw hread
  | ok program =>
    rw [hparse] at hread
    refine (Keeps.newScope none .empty).bind fun scope j₁ h₁ _ => ?_
    refine (runProgram_keeps complete hosts (later h₁ hread)).bind fun _ j₂ _ _ => ?_
    -- The members are what the scope of the module binds.
    have hbindings : B.Keeps j₂ unit (Eval.readStore (·.bindings scope))
        (fun j bindings => bindings.All (B.Value j)) B.Named :=
      .readStore fun s hs => hs.bindings scope
    exact hbindings.bind fun _ _ _ hmembers => .pure hmembers

end Calls

/-! ### Hosts -/

/-- Modules that are found are accounted for from the moment that their evaluation begins. -/
def ReadsFrom (B : Blame) (resolve : Resolver) : Prop :=
  ∀ {j : Journal} {name : String} {found : ResolvedModule}, resolve name = .ok found →
    B.base <:+ j → B.Read (.began found.key found.text :: j) ⟨found.key, found.text⟩

/-- A frame runs code on a host with one frame less, so the induction is on the frames left. -/
theorem withFrames_keeps (complete : B.Complete) {setting : Setting}
    (hsilent : setting.resolve.Silent) (hread : B.ReadsFrom setting.resolve) (frames : Nat) :
    B.HostKeeps (Host.withFrames setting frames) := by
  induction frames with
  | zero =>
    -- A call is refused at once, and a load when it is the turn of the module.
    constructor
    · intro j unit callee args span hcallee hargs
      exact failCall_keeps rfl
    · intro j unit name
      change B.Keeps j unit (loadModule setting.resolve name fun _ =>
        Eval.fail (.tooManyFrames setting.maxFrames)) Any B.LoadFault
      refine .load (hsilent name) fun found hfound hbase => ?_
      exact .throw (.inr (Fault.report_placeless _))
  | succ frames ih =>
    constructor
    · intro j unit callee args span hcallee hargs
      exact .inFrame (applyValue_keeps complete ih hcallee hargs)
    · intro j unit name
      change B.Keeps j unit (loadModule setting.resolve name fun source => Eval.inFrame
        (evalModule (Host.withFrames setting frames) (bareName name) source)) Any B.LoadFault
      refine .load (hsilent name) fun found hfound hbase => .inFrame ?_
      exact (evalModule_keeps complete ih (hread hfound hbase)).mono_fault fun _ _ _ => .inl

end Blame

end ScriptLang
