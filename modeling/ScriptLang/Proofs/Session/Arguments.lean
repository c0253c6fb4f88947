import ScriptLang.Proofs.Eval.Return
import ScriptLang.Proofs.Session.Reserved

/-!
# Arguments

A call binds the parameters of a function one after the other, so if two of them had the same name, the
second would take the place of the first, and a value would be lost. No function has such parameters
that can come up where programs are evaluated that have been read: the reader refuses them, wherever a
function stands, and every function that is found in a scope, in a module, in a class or in an object
was made by evaluating a function that stands in a program.

So the scope in which a body begins binds each parameter to its value and nothing else. This holds for
functions, for methods of objects and for the functions that set up new objects, which differ only in
where the first value comes from; and a method that is called on an object is a function that is called
with the object in front of the arguments.

## Main definitions

* `Discipline.written`: functions stand in programs that have been read
* `Dialogue.ComesUp`: the values between requests and at the moments of requests
* `Store.Opens`: the scope of a call
* `Closure.conclude`, `Value.answer`: what a call makes of the end of a body

## Main results

* `Dialogue.ComesUp.paramsFree`: what comes up are functions whose parameters have different names
* `Closure.opens_enter`: the scope of a call binds each parameter to its value
* `Value.Invokes.call_eq`, `Value.Invokes.call_refused`: calls with as many values as parameters, and
  other calls
* `evalExpr_call_method`: methods are called like functions
* `Dialogue.arguments_bound`: all this for whatever comes up
-/

namespace ScriptLang

/-! ### The functions of programs that have been read -/

/-- The code stands in a program that has been read. -/
def Node.IsWritten (x : Node) : Prop := x.OccursIn fun _ => True

/-- Any store will do. -/
def World.any : World where
  State := Store
  store := id
  Shape _ := True
  Later _ _ := True
  refl _ := trivial
  trans _ _ := trivial

theorem World.any_next {s t : Store} {P : Store → Prop} (h : P t) : World.any.Next s t P :=
  ⟨t, rfl, trivial, trivial, h⟩

/-- Code stands in programs that have been read, and functions are made where it does. -/
def Discipline.written : Discipline where
  toWorld := .any
  Source _ := True
  Closure _ f := (Node.function f.function).IsWritten
  Fields _ _ := True
  Open _ _ := True
  Runs _ _ x := x.IsWritten
  closure_mono _ hf := hf
  fields_mono _ hi := hi
  open_mono _ hid := hid
  runs_mono _ hx := hx
  open_of_runs _ := trivial
  runs_child hx hy := hx.child hy
  closure _ hf _ := World.any_next hf
  define _ _ _ := World.any_next trivial
  assign _ _ _ := World.any_next trivial
  field _ _ _ _ := World.any_next trivial
  inner _ _ := World.any_next ⟨trivial, fun _ hx => hx⟩
  call _ _ hf _ := World.any_next (hf.child List.mem_cons_self)
  root _ := World.any_next ⟨trivial, fun source program _ hprogram stmt hstmt =>
    ⟨source, program, stmt, trivial, hprogram, hstmt, .refl _⟩⟩
  fields _ _ := World.any_next trivial
  newObject _ := World.any_next trivial
  addModule _ _ := World.any_next trivial

/-- The function that is called is one that the value is made of. -/
theorem Value.Invokes.closure {D : Discipline} {s : D.State} {callee : Value} {f : Closure}
    {receiver : Option Value} {m m' : Machine} (h : callee.Invokes m f receiver m')
    (hcallee : D.Value s callee) : D.Closure s f := by
  cases h with
  | function => exact hcallee
  | method => exact hcallee.1
  | init hinit => exact hcallee _ _ hinit

/-- A program that is handed over has been read. -/
def Request.IsParsed : Request → Prop
  | .run program _ _ => ∃ source, Program.parse source = .ok program
  | _ => True

namespace Dialogue

/-- One request more, with programs that have been read. -/
def StepParsed (x y : Dialogue) : Prop :=
  ∃ setting request, request.IsParsed ∧ x.Allows request ∧ y = x.next setting request

/-- Some requests more, with programs that have been read. -/
def ReachesParsed : Dialogue → Dialogue → Prop := Relation.ReflTransGen StepParsed

/-- The moment is one of a request that can be made next. -/
def ComesTo (x : Dialogue) (setting : Setting) (y : Moment) : Prop :=
  ∃ request : Request, request.IsParsed ∧ x.Allows request ∧ request.Visits setting x.machine y

/-- The value comes up: it is held between two requests, or at a moment of the next one it is bound or is
what an expression evaluates to; or it is a part of such a value. -/
inductive ComesUp (x : Dialogue) : Value → Prop where
  | held {v : Value} : x.Held v → ComesUp x v
  | bound {setting : Setting} {y : Moment} {id : ScopeId} {name : String} {v : Value} :
    x.ComesTo setting y → (y.machine.store.bindings id).get? name = some v → ComesUp x v
  | member {setting : Setting} {y : Moment} {ref : ModuleRef} {module : Module} {name : String}
    {v : Value} : x.ComesTo setting y → y.machine.store.module? ref = some module →
    module.members.get? name = some v → ComesUp x v
  | evaluated {setting : Setting} {y : Moment} {e : Expr} {v : Value} {m : Machine} :
    x.ComesTo setting y → y.node = .expr e →
    evalExpr (Host.withFrames setting y.frames) y.scope e y.machine = .ok v m → ComesUp x v
  | methodOf {c : Class} {name : String} {f : Closure} : ComesUp x (.ofClass c) →
    c.methods.get? name = some f → ComesUp x (.function f)
  | classOf {i : Instance} : ComesUp x (.object i) → ComesUp x (.ofClass i.ofClass)
  | receiver {b : BoundMethod} : ComesUp x (.method b) → ComesUp x (.object b.receiver)
  | function {b : BoundMethod} : ComesUp x (.method b) → ComesUp x (.function b.method)

section Written

variable {x : Dialogue} {s : Store}

/-- What a dialogue asks for with programs that have been read may be done. -/
theorem admits_of_isParsed (h : Discipline.written.Knows s x) {request : Request}
    (hparsed : request.IsParsed) (hallows : x.Allows request) :
    Discipline.written.Admits s request := by
  cases request with
  | evaluate source scope => exact ⟨trivial, h.given _ hallows⟩
  | run program scope unit =>
    obtain ⟨source, hprogram⟩ := hparsed
    exact (h.given (.scope scope) hallows).runs source program trivial hprogram
  | newChild scope => exact h.given _ hallows
  | call callee args span => exact ⟨h.value hallows.1, fun v hv => h.value (hallows.2 v hv)⟩
  | define scope name v => exact ⟨fun _ => World.any_next trivial, h.value hallows.2⟩
  | load | newRoot => trivial

/-- From the first request on, functions stand in programs that have been read. -/
theorem exists_knows_written {echo : Bool} (hx : (start echo).ReachesParsed x) :
    ∃ s, Discipline.written.Knows s x := by
  induction hx with
  | refl => exact ⟨{}, .start echo rfl trivial⟩
  | tail _ hstep ih =>
    obtain ⟨s, hknows⟩ := ih
    obtain ⟨setting, request, hparsed, hallows, rfl⟩ := hstep
    obtain ⟨s', -, hknows'⟩ :=
      hknows.next (fun _ _ _ => trivial) (admits_of_isParsed hknows hparsed hallows)
    exact ⟨s', hknows'⟩

/-- At the moments of the next request they do as well. -/
theorem ComesTo.meets (h : Discipline.written.Knows s x) {setting : Setting} {y : Moment}
    (hy : x.ComesTo setting y) : ∃ s', Discipline.written.Meets s' y := by
  obtain ⟨request, hparsed, hallows, hvisits⟩ := hy
  exact h.visits (fun _ _ _ => trivial) (admits_of_isParsed h hparsed hallows) hvisits

/-- Whatever comes up is made of functions that stand in programs that have been read. -/
theorem ComesUp.written (h : Discipline.written.Knows s x) {v : Value} (hv : x.ComesUp v) :
    Discipline.written.Value s v := by
  -- Which functions these are does not depend on the store.
  have hany {s' : Store} {v : Value} (hv : Discipline.written.Value s' v) :
      Discipline.written.Value s v := Discipline.Value.mono trivial hv
  induction hv with
  | held hv => exact h.value hv
  | bound hy hbound =>
    obtain ⟨s', hdescribes, -⟩ := hy.meets h
    have hholds := hdescribes.fine.holds
    rw [hdescribes.store] at hholds
    exact hany (hholds.bindings _ _ _ hbound)
  | member hy hmodule hmember =>
    obtain ⟨s', hdescribes, -⟩ := hy.meets h
    have hholds := hdescribes.fine.holds
    rw [hdescribes.store] at hholds
    exact hany (hholds.members _ _ hmodule _ _ hmember)
  | @evaluated setting y _ _ _ hy hnode hvalue =>
    obtain ⟨s', hdescribes, hruns⟩ := hy.meets h
    rw [hnode] at hruns
    have hfinds : Discipline.written.Finds setting := fun _ _ _ => trivial
    have hosts := Discipline.withFrames_keeps hfinds y.frames
    obtain ⟨s'', -, -, hv⟩ := (Discipline.evalExpr_keeps hosts _ hruns).of_ok hdescribes hvalue
    exact hany hv
  | methodOf _ hmethod ih => exact ih _ _ hmethod
  | classOf _ ih => exact ih.methods
  | receiver _ ih => exact ih.2
  | function _ ih => exact ih.1

/-- What comes up calls functions whose parameters have different names. -/
theorem ComesUp.paramsFree {echo : Bool} (hx : (start echo).ReachesParsed x) {callee : Value}
    (hcallee : x.ComesUp callee) {f : Closure} {receiver : Option Value} {m m' : Machine}
    (hf : callee.Invokes m f receiver m') : f.function.ParamsFree := by
  obtain ⟨s, hknows⟩ := exists_knows_written hx
  have hwritten : (Node.function f.function).IsWritten :=
    hf.closure (hcallee.written hknows)
  exact hwritten.nameFree

end Written

end Dialogue

/-! ### The scope of a call -/

/-- The scope is new, lies in the one that the function was made in, and binds the parameters, and
nothing else, to the values, in order. All other scopes are what they were. -/
structure Store.Opens (s s' : Store) (id : ScopeId) (f : Closure) (values : List Value) : Prop where
  fresh : id = s.scopes.size
  size : s'.scopes.size = s.scopes.size + 1
  around : s'.around? id = some f.scope
  entries : (s'.bindings id).entries = (f.function.params.map Ident.name).zip values
  names : (s'.bindings id).names = f.function.params.map Ident.name
  value (i : Nat) (param : Ident) (v : Value) : f.function.params[i]? = some param →
    values[i]? = some v → (s'.bindings id).get? param.name = some v
  others (other : ScopeId) : other ≠ id →
    s'.around? other = s.around? other ∧ s'.bindings other = s.bindings other

/-- A call binds each parameter to its value, if no two parameters have the same name. -/
theorem Closure.opens_enter {f : Closure} (hparams : f.function.ParamsFree) {values : List Value}
    (hcount : values.length = f.arity) (m : Machine) :
    m.store.Opens (f.enter values m).2.store (f.enter values m).1 f values := by
  have hsame : (f.enter values m).2.store.bindings (f.enter values m).1 =
      bindParams f.function.params values := (Store.bindings_newScope ..).trans (if_pos rfl)
  have hnames := Table.names_bindParams hparams.nodup hcount
  have hentries := Table.entries_bindParams hparams.nodup hcount
  refine ⟨rfl, Array.size_push _, (Store.around?_newScope ..).trans (if_pos rfl), ?_, ?_, ?_, ?_⟩
  · rw [hsame, hentries]
  · rw [hsame, hnames]
  · intro i param v hparam hv
    rw [hsame]
    -- No name is entered twice, so an entry is found under its name.
    refine findEntry_of_mem (Table.nodup _) ?_
    rw [hentries]
    exact List.mem_of_getElem? (List.getElem?_zip_eq_some.2 ⟨by rw [List.getElem?_map, hparam]; rfl, hv⟩)
  · intro other hother
    exact ⟨(Store.around?_newScope ..).trans (if_neg hother),
      (Store.bindings_newScope ..).trans (if_neg hother)⟩

/-! ### Calls -/

theorem kind_arityFault (f : Closure) (implicit given : Nat) :
    (arityFault f implicit given).kind = .arity := by
  rw [arityFault]
  split <;> rfl

/-- What a call of the value gives back if the body of the function gives back another value: this, or
the object that a class has made. -/
def Value.answer (callee : Value) (receiver : Option Value) (v : Value) : Value :=
  match callee, receiver with
  | .ofClass _, some made => made
  | _, _ => v

/-- What a call makes of the ways in which the body of the function can end. -/
def Closure.conclude (f : Closure) (m : Machine) (answer : Value → Value) :
    EStateM.Result Diagnostic Machine Completion → EStateM.Result Diagnostic Machine Value
  | .ok (.returned v) m' => .ok (answer v) { m' with unit := m.unit, depth := m.depth }
  | .ok (.finished _) m' => .ok (answer .nil) { m' with unit := m.unit, depth := m.depth }
  | .error d m' => .error (d.withUnit f.origin) { m' with unit := m.unit, depth := m.depth }

namespace Value.Invokes

variable {callee : Value} {f : Closure} {receiver : Option Value} {args : List Value} {m m' : Machine}

/-- A value is called by calling its function. -/
theorem applyValue_eq (h : callee.Invokes m f receiver m') (host : Host) (span : Span) :
    applyValue host callee args span m =
      match invoke host f receiver args span m' with
      | .ok v m'' => .ok (callee.answer receiver v) m''
      | .error d m'' => .error d m'' := by
  cases h with
  | function =>
    rw [applyValue]
    cases invoke host f none args span m <;> rfl
  | @method b =>
    rw [applyValue]
    cases invoke host b.method (some (.object b.receiver)) args span m <;> rfl
  | @init c _ fields _ _ hinit hnew =>
    -- What the function gives back is dropped for the object.
    rw [applyValue, instantiate, Eval.bind_eq, hnew]
    dsimp only
    rw [hinit]
    dsimp only
    rw [Eval.bind_eq]
    cases invoke host f (some (.object ⟨c, fields⟩)) args span m' <;> rfl

theorem unit_eq (h : callee.Invokes m f receiver m') : m'.unit = m.unit := by
  cases h with
  | function | method => rfl
  | init _ hnew =>
    cases hnew
    rfl

variable (h : callee.Invokes { m with depth := m.depth + 1 } f receiver m')
include h

/-- With as many values as parameters the body is run, in the scope of the call. -/
theorem call_eq (hcount : (receiver.toList ++ args).length = f.arity) (setting : Setting)
    (frames : Nat) (span : Span) :
    (Host.withFrames setting (frames + 1)).call callee args span m =
      f.conclude m (callee.answer receiver) (runStmts (Host.withFrames setting frames)
        (f.enter (receiver.toList ++ args) m').1 f.function.body.stmts .nil
        (f.enter (receiver.toList ++ args) m').2) := by
  rw [Host.call_succ, h.applyValue_eq, invoke_apply _ _ _ _ _ _ hcount, h.unit_eq]
  cases runStmts (Host.withFrames setting frames) (f.enter (receiver.toList ++ args) m').1
    f.function.body.stmts .nil (f.enter (receiver.toList ++ args) m').2 with
  | ok completion m'' => cases completion <;> rfl
  | error d m'' => rfl

/-- With another number of values the call is refused, and nothing of the body is run. -/
theorem call_refused (hcount : (receiver.toList ++ args).length ≠ f.arity) (setting : Setting)
    (frames : Nat) (span : Span) :
    (Host.withFrames setting (frames + 1)).call callee args span m =
      .error ((arityFault f receiver.toList.length args.length).at span)
        { m' with depth := m.depth } := by
  rw [Host.call_succ, h.applyValue_eq, invoke, if_pos hcount]
  rfl

end Value.Invokes

/-! ### Methods -/

/-- A receiver is the first of the values. -/
theorem invoke_receiver {f : Closure} {args : List Value} (hcount : args.length + 1 = f.arity)
    (host : Host) (receiver : Value) (span : Span) :
    invoke host f (some receiver) args span = invoke host f none (receiver :: args) span := by
  have hvalues : (some receiver).toList ++ args = none.toList ++ receiver :: args := rfl
  have hgiven : ((some receiver).toList ++ args).length = f.arity := hcount
  rw [invoke, if_neg (not_not_intro hgiven), invoke, if_neg (not_not_intro (hvalues ▸ hgiven))]
  rfl

/-- A method of an object is called like its function, with the object in front. -/
theorem Host.call_method {i : Instance} {f : Closure} {args : List Value}
    (hcount : args.length + 1 = f.arity) (setting : Setting) (frames : Nat) (span : Span) (m : Machine) :
    (Host.withFrames setting frames).call (.method ⟨i, f⟩) args span m =
      (Host.withFrames setting frames).call (.function f) (.object i :: args) span m := by
  cases frames with
  | zero => rfl
  | succ frames =>
    -- With a frame left the two differ in where the first value comes from.
    have happly (host : Host) : applyValue host (.method ⟨i, f⟩) args span =
        applyValue host (.function f) (.object i :: args) span := invoke_receiver hcount host _ span
    rw [call_succ, call_succ, happly]

/-- There are as many arguments as there are expressions for them. -/
theorem length_of_evalArgs {host : Host} {scope : ScopeId} {es : List Expr} {vs : List Value}
    {m m' : Machine} (h : evalArgs host scope es m = .ok vs m') : vs.length = es.length := by
  induction es generalizing vs m with
  | nil =>
    rw [evalArgs] at h
    cases h
    rfl
  | cons e es ih =>
    rw [evalArgs] at h
    obtain ⟨v, m₁, -, hrest⟩ := Eval.exists_of_bind_ok h
    obtain ⟨vs', m₂, hvs', hlast⟩ := Eval.exists_of_bind_ok hrest
    cases hlast
    rw [List.length_cons, List.length_cons, ih hvs']

section Members

variable {m : Machine} {i : Instance} {name : String} {f : Closure}
  (hmethod : i.ofClass.methods.get? name = some f)
include hmethod

/-- A method is read on an object whose fields do not hide it. -/
theorem readMember_object (hfield : (m.store.bindings i.fields).get? name = none) (place : Span) :
    readMember (.object i) ⟨name, place⟩ m = .ok (.method ⟨i, f⟩) m := by
  have hread : Eval.readStore (fun s => (s.bindings i.fields).get? name) m = .ok none m :=
    congrArg (EStateM.Result.ok · m) hfield
  rw [readMember, readField, Eval.bind_eq, hread]
  dsimp only
  rw [hmethod]
  rfl

/-- On the class it is read as a function. -/
theorem readMember_ofClass (place : Span) :
    readMember (.ofClass i.ofClass) ⟨name, place⟩ m = .ok (.function f) m := by
  rw [readMember, hmethod]
  rfl

variable {setting : Setting} {frames : Nat} {scope : ScopeId} {object object' cls : Expr}
  {args : List Expr}

/-- Calling a method on an object is calling it on the class with the object in front. -/
theorem evalExpr_call_method
    (hobject : evalExpr (Host.withFrames setting frames) scope object m = .ok (.object i) m)
    (hobject' : evalExpr (Host.withFrames setting frames) scope object' m = .ok (.object i) m)
    (hcls : evalExpr (Host.withFrames setting frames) scope cls m = .ok (.ofClass i.ofClass) m)
    (hfield : (m.store.bindings i.fields).get? name = none) (hcount : args.length + 1 = f.arity)
    (span p p' q q' : Span) :
    evalExpr (Host.withFrames setting frames) scope (.call span (.member p object ⟨name, q⟩) args) m =
      evalExpr (Host.withFrames setting frames) scope
        (.call span (.member p' cls ⟨name, q'⟩) (object' :: args)) m := by
  have hread : evalExpr (Host.withFrames setting frames) scope (.member p object ⟨name, q⟩) m =
      .ok (.method ⟨i, f⟩) m := by
    rw [evalExpr, Eval.bind_eq, hobject]
    exact readMember_object hmethod hfield q
  have hread' : evalExpr (Host.withFrames setting frames) scope (.member p' cls ⟨name, q'⟩) m =
      .ok (.function f) m := by
    rw [evalExpr, Eval.bind_eq, hcls]
    exact readMember_ofClass hmethod q'
  -- The class comes before the object, and the object before the arguments; neither changes anything.
  rw [evalExpr, Eval.bind_eq, hread, evalExpr, Eval.bind_eq, hread']
  dsimp only
  rw [Eval.bind_eq, Eval.bind_eq, evalArgs, Eval.bind_eq, hobject']
  dsimp only
  rw [Eval.bind_eq]
  cases hargs : evalArgs (Host.withFrames setting frames) scope args m with
  | error d m' => rfl
  | ok vs m' =>
    have hlength : vs.length + 1 = f.arity := by rw [length_of_evalArgs hargs, hcount]
    exact Host.call_method hlength setting frames span m'

end Members

/-- **No argument is lost.** Whatever function, method or class comes up in a dialogue whose programs
have been read, a call of it, with a frame left for it, runs the body if there are as many values as
parameters, counting the receiver, in a new scope that lies in the one that the function was made in and
binds each parameter to its value, and nothing else; and it is refused, with nothing of the body run, if
there are not. So if a method is called on an object that has no field of this name, this is a call of
the function that the class has, with the object in front of the arguments. -/
theorem Dialogue.arguments_bound {echo : Bool} {x : Dialogue} (hx : (start echo).ReachesParsed x) :
    (∀ callee, x.ComesUp callee → ∀ m f receiver m',
      callee.Invokes { m with depth := m.depth + 1 } f receiver m' → ∀ setting frames args span,
        let values := receiver.toList ++ args
        let call := (Host.withFrames setting (frames + 1)).call callee args span m
        let entered := f.enter values m'
        (values.length = f.arity → m'.store.Opens entered.2.store entered.1 f values ∧
          call = f.conclude m (callee.answer receiver) (runStmts (Host.withFrames setting frames)
            entered.1 f.function.body.stmts .nil entered.2)) ∧
        (values.length ≠ f.arity → ∃ d, d.kind = .arity ∧
          call = .error d { m' with depth := m.depth })) ∧
    ∀ setting frames i f,
      let host := Host.withFrames setting frames
      (∀ args span, args.length + 1 = f.arity →
        host.call (.method ⟨i, f⟩) args span = host.call (.function f) (.object i :: args) span) ∧
      ∀ scope m object object' cls args name, args.length + 1 = f.arity →
        evalExpr host scope object m = .ok (.object i) m →
        evalExpr host scope object' m = .ok (.object i) m →
        evalExpr host scope cls m = .ok (.ofClass i.ofClass) m →
        i.ofClass.methods.get? name = some f →
        (m.store.bindings i.fields).get? name = none → ∀ span p p' q q',
          evalExpr host scope (.call span (.member p object ⟨name, q⟩) args) m =
            evalExpr host scope (.call span (.member p' cls ⟨name, q'⟩) (object' :: args)) m := by
  refine ⟨fun callee hcallee m f receiver m' hf setting frames args span => ⟨fun hcount => ?_,
    fun hcount => ?_⟩, fun setting frames i f => ⟨fun args span hcount => ?_, ?_⟩⟩
  · have hparams : f.function.ParamsFree := hcallee.paramsFree hx hf
    exact ⟨Closure.opens_enter hparams hcount m', hf.call_eq hcount setting frames span⟩
  · have hkind := (Fault.at_kind _ span).trans (kind_arityFault f receiver.toList.length args.length)
    exact ⟨_, hkind, hf.call_refused hcount setting frames span⟩
  · exact funext fun m => Host.call_method hcount setting frames span m
  · intro scope m object object' cls args name hcount hobject hobject' hcls hmethod hfield
    exact evalExpr_call_method hmethod hobject hobject' hcls hfield hcount

/-- The names of the parameters of a method of an object. -/
def Value.methodParams? (name : String) : Value → Option (List String)
  | .object i => (i.ofClass.methods.get? name).map fun f => f.function.params.map Ident.name
  | _ => none

theorem Value.exists_of_methodParams? {name : String} {names : List String} {v : Value}
    (h : v.methodParams? name = some names) : ∃ i f, v = .object i ∧
      i.ofClass.methods.get? name = some f ∧ f.function.params.map Ident.name = names := by
  cases v with
  | object i =>
    obtain ⟨f, hf, hnames⟩ := Option.map_eq_some_iff.1 h
    exact ⟨i, f, rfl, hf, hnames⟩
  | _ => cases h

/-- `fx put(self, v) { self.v = v }`, made in the first scope. -/
def putMethod : Closure :=
  let span := Span.point Position.start
  let body : Stmt := .expr (.assignMember span (.selfRef span) ⟨"v", span⟩ (.name span "v"))
  ⟨0, some "put", .mk [⟨"self", span⟩, ⟨"v", span⟩] (.mk [body] span) span, 0, "main"⟩

/-- An object of a class with the method. -/
def jar : Instance := ⟨⟨1, "Jar", Table.ofList [("put", putMethod)]⟩, 1⟩

/-- The class and the object are bound in the first scope; the object has no fields. -/
def jarMachine : Machine :=
  { (default : Machine) with
    store := ⟨#[⟨none, Table.ofList [("Jar", .ofClass jar.ofClass), ("jar", .object jar)]⟩,
      ⟨none, .empty⟩], #[], 2⟩ }

theorem evalExpr_name_of_bound {host : Host} {scope : ScopeId} {name : String} {v : Value} {m : Machine}
    (h : (m.store.bindings scope).get? name = some v) (span : Span) :
    evalExpr host scope (.name span name) m = .ok v m := by
  rw [evalExpr, readName_eq, Store.lookup?, h]

namespace Dialogue

/-- A class with a method that sets two fields, and an object of it. -/
def fillingUnit : SourceUnit :=
  ⟨"main", "clx Box \x7b fx fill(self, a, b) \x7b self.a = a self.b = b \x7d \x7d box = Box()"⟩

theorem reachesParsed_evaluated (source : SourceUnit) :
    (start false).ReachesParsed (evaluated source) := by
  have hnew : (start false).ReachesParsed ((start false).next selfModule .newRoot) :=
    .single ⟨selfModule, .newRoot, trivial, trivial, rfl⟩
  exact hnew.tail ⟨selfModule, .evaluate source 0, trivial, List.mem_cons_self, rfl⟩

/-- The method of the object has three parameters, and two arguments are bound behind the object; with
one the call is refused. And `jar.put(5)` is `Jar.put(jar, 5)`. -/
theorem arguments_bound_packed :
    let packed := evaluated fillingUnit
    (start false).ReachesParsed packed ∧
    (∃ i f, packed.ComesUp (.method ⟨i, f⟩) ∧
      let call := fun args => (Host.withFrames selfModule 4).call (.method ⟨i, f⟩) args
        (Span.point Position.start) packed.machine
      let entered := f.enter [.object i, .int 1, .int 2]
        { packed.machine with depth := packed.machine.depth + 1 }
      (entered.2.store.bindings entered.1).entries =
          [("self", .object i), ("a", .int 1), ("b", .int 2)] ∧
        call [.int 1, .int 2] = f.conclude packed.machine id (runStmts (Host.withFrames selfModule 3)
          entered.1 f.function.body.stmts .nil entered.2) ∧
        ∃ d, d.kind = .arity ∧ call [.int 1] = .error d packed.machine) ∧
    let span := Span.point Position.start
    let member := fun object : String => Expr.member span (.name span object) ⟨"put", span⟩
    let host := Host.withFrames selfModule 4
    evalExpr host 0 (.call span (member "jar") [.int span 5]) jarMachine =
      evalExpr host 0 (.call span (member "Jar") [.name span "jar", .int span 5]) jarMachine := by
  intro packed
  obtain ⟨hcalls, hmethods⟩ := arguments_bound (reachesParsed_evaluated fillingUnit)
  refine ⟨reachesParsed_evaluated fillingUnit, ?_, ?_⟩
  · have hparams : ((packed.machine.store.bindings 0).get? "box").bind (Value.methodParams? "fill") =
        some ["self", "a", "b"] := by decide +kernel
    obtain ⟨v, hv, hshape⟩ := Option.bind_eq_some_iff.1 hparams
    obtain ⟨i, f, rfl, hf, hnames⟩ := Value.exists_of_methodParams? hshape
    have hobject : packed.Held (.object i) := .bound hv
    have hheld : packed.ComesUp (.method ⟨i, f⟩) :=
      .held (hobject.attach (.methodOf (.classOf hobject) hf))
    have harity : f.arity = 3 := by
      rw [Closure.arity, Lambda.arity, ← List.length_map Ident.name, hnames]
      rfl
    have hcall := hcalls _ hheld packed.machine f _ _ .method selfModule 3
    obtain ⟨hopens, hrun⟩ := (hcall [.int 1, .int 2] (Span.point Position.start)).1 harity.symm
    have hfewer : 2 ≠ f.arity := by
      rw [harity]
      decide
    have hrefused := (hcall [.int 1] (Span.point Position.start)).2 hfewer
    refine ⟨i, f, hheld, ?_, hrun, hrefused⟩
    have hentries := hopens.entries
    rw [hnames] at hentries
    exact hentries
  · have hjar (span : Span) : evalExpr (Host.withFrames selfModule 4) 0 (.name span "jar") jarMachine =
        .ok (.object jar) jarMachine := evalExpr_name_of_bound rfl span
    have hclass (span : Span) : evalExpr (Host.withFrames selfModule 4) 0 (.name span "Jar") jarMachine =
        .ok (.ofClass jar.ofClass) jarMachine := evalExpr_name_of_bound rfl span
    exact (hmethods selfModule 4 jar putMethod).2 0 jarMachine _ _ _ _ "put" rfl (hjar _) (hjar _)
      (hclass _) rfl rfl _ _ _ _ _

end Dialogue

end ScriptLang
