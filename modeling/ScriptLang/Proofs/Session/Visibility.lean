import ScriptLang.Proofs.Module.Visibility
import ScriptLang.Proofs.Session.Stock

/-!
# Visibility

What can be read from a module is decided when its evaluation ends, by the names that it has bound and
by nothing else. It does not matter which program reads, what that program has bound, or what the
functions of the module do later.

## Main definitions

* `Module.ComesFrom`: where the module is from that a load gives back

## Main results

* `Module.exists_of_load`: a load that succeeds gives back a module in the store
* `module_visibility`: from its load on, a module answers by its names
-/

namespace ScriptLang

namespace Module

/-- Where the module is from that a load gives back: it has been in stock, or the evaluation of the unit
that was found has made it, one frame further in. -/
inductive ComesFrom (setting : Setting) (found : ResolvedModule) (m : Machine) (ref : ModuleRef)
    (module : Module) : Nat → Prop where
  | stock {frames : Nat} : m.registry.get? found.key = some ref → m.store.module? ref = some module →
    ComesFrom setting found m ref module frames
  | evaluation {frames : Nat} {name : String} {registry : Registry ModuleRef} :
    m.registry.start? found.key name = .ok (.started registry) →
    module.Made (Host.withFrames setting frames) ⟨found.key, found.text⟩
      { m.beginLoad found registry with depth := m.depth + 1 } →
    ComesFrom setting found m ref module (frames + 1)

/-- A load that succeeds gives back a module in the store. -/
theorem exists_of_load {setting : Setting} {frames : Nat} {name : String} {m m' : Machine}
    {ref : ModuleRef} (hm : m.Stocked) (h : loadWithin setting frames name m = .ok ref m') :
    ∃ found module, setting.resolve name = .ok found ∧ module.key = found.key ∧ module.IsMade ∧
      m'.store.module? ref = some module ∧ module.ComesFrom setting found m ref frames := by
  have hrun := loadModule_run setting.resolve name (evaluateWithin setting frames name) m
  rw [← loadWithin_eq, h] at hrun
  -- Of the ways in which a load can go, two succeed.
  cases hrun with
  | @reused found _ hresolve hstart =>
    have hcached := Registry.start?_eq_cached_iff.1 hstart
    obtain ⟨module, href, hkey⟩ := hm.loaded hcached
    exact ⟨found, module, hresolve, hkey, hm.made href, href, .stock hcached href⟩
  | @completed found registry module m₁ hresolve hstart hdone =>
    obtain ⟨inside, rfl, hmade⟩ := made_of_evaluateWithin hdone
    have hismade : module.IsMade := ⟨setting, inside, name, found, _, hresolve, hmade⟩
    exact ⟨found, module, hresolve, hmade.key_eq, hismade, m₁.store.module?_addModule module,
      .evaluation hstart hmade⟩

end Module

/-- **Visibility is decided by the name alone, and nothing is lost.** A load that succeeds, at any point
of any session, puts a module into the store or finds it there. What is in the store stays as it is,
whatever is evaluated or asked of the session afterwards, at every moment of it. And wherever an
expression stands for a module, the module has been made by the evaluation of a unit, sorts what that has
bound by name, and answers by it: a member is its value, or a report of its own kind, and nothing else is
looked at. -/
theorem module_visibility {m : Machine} (h : m.Occurs) (setting : Setting) (frames : Nat) :
    let host := Host.withFrames setting frames
    (∀ name ref m', host.load name m = .ok ref m' → ∃ found module,
      setting.resolve name = .ok found ∧ module.key = found.key ∧ module.IsMade ∧
        m'.store.module? ref = some module ∧ module.ComesFrom setting found m ref frames) ∧
    (∀ (m' : Machine) ref module, m'.store.module? ref = some module →
      (∀ scope (x : Node), ((x.run host scope).after m').store.module? ref = some module) ∧
      ∀ request : Request,
        ((request.perform setting).after m').store.module? ref = some module ∧
        ∀ y, request.Visits setting m' y → y.machine.store.module? ref = some module) ∧
    ∀ scope object ref m' module, evalExpr host scope object m = .ok (.module ref) m' →
      m'.store.module? ref = some module → module.IsMade ∧ module.SortsByName ∧
        ∀ span member,
          module.Answers member.name m' (evalExpr host scope (.member span object member) m) := by
  intro host
  refine ⟨fun name ref m' hload => ?_, fun m' ref module href => ?_, ?_⟩
  · exact Module.exists_of_load h.stocked hload
  · have hkept {m'' : Machine} (hextends : m'.Extends m'') : m''.store.module? ref = some module :=
      Store.module?_of_prefix hextends.modules href
    refine ⟨fun scope x => ?_, fun request => ⟨?_, fun y hvisits => ?_⟩⟩
    · exact hkept (Machine.Extends.closed.run setting frames scope x m')
    · exact hkept (.perform setting request m')
    · exact hkept (.visits hvisits)
  · intro scope object ref m' module hobject href
    have hosts := Machine.Extends.hosts setting frames
    have hkeeps := Machine.Extends.stepClosed.congruence.evalExpr hosts scope object
    have hextends : m.Extends m' := Eval.rel_of_ok hkeeps hobject
    have hmade := (hextends.stocked h.stocked).made href
    exact ⟨hmade, module.sortsByName, fun span member => module.answers_evalExpr hobject href span member⟩

/-- A setting with two modules, one of which loads the other. -/
def shapesModule : Setting :=
  ⟨4, Library.resolve (Table.ofList [("base", "One = 1"), ("shapes",
    "load(\"base\") Area = 1 side = 2 Area = 3 __Hidden = 4 fx Scale(x) \x7b return x \x7d")])⟩

/-- A program has loaded the module and bound a name of its own. -/
def importing : Machine :=
  Session.after [(shapesModule, .newRoot),
    (shapesModule, .evaluate ⟨"main", "load(\"shapes\") Extra = 1"⟩ 0)] (Machine.start false)

/-- `shapes` in the program. -/
def shapesName : Expr := .name (Span.point Position.start) "shapes"

/-- A member of the module, read by the program. -/
def readShapes (name : String) : EStateM.Result Diagnostic Machine Value :=
  let span := Span.point Position.start
  evalExpr (Host.withFrames shapesModule 4) 0 (.member span shapesName ⟨name, span⟩) importing

/-- A name bound twice, a loaded module and a reserved beginning: all of them have their place. The
program binds one of the names that are read, and another one is a built-in, but the module has
neither. -/
theorem module_visibility_shapes :
    importing.Occurs ∧ ∃ module, importing.store.module? ⟨1, "shapes"⟩ = some module ∧
      module.IsMade ∧ module.exports = ["Area", "Scale"] ∧
      module.privates = ["base", "side", "__Hidden"] ∧
      (∃ v, module.members.get? "Area" = some v ∧ readShapes "Area" = .ok v importing) ∧
      (∃ d m', readShapes "__Hidden" = .error d m' ∧ d.kind = .visibility) ∧
      (importing.store.lookup? 0 "Extra").isSome = true ∧
      (∃ d m', readShapes "Extra" = .error d m' ∧ d.kind = .name) ∧
      (Builtin.ofName? "len").isSome = true ∧
      ∃ d m', readShapes "len" = .error d m' ∧ d.kind = .name := by
  have hoccurs : importing.Occurs := .after _ _ (.after _ _ (.start false))
  have hnames : (importing.store.module? ⟨1, "shapes"⟩).map (·.members.names) =
      some ["base", "Area", "side", "__Hidden", "Scale"] := by decide +kernel
  obtain ⟨module, hmodule, hnames⟩ := Option.map_eq_some_iff.1 hnames
  have hbound : (importing.store.lookup? 0 "shapes").any (Value.same (.module ⟨1, "shapes"⟩)) = true := by
    decide +kernel
  obtain ⟨ref, href, hobject⟩ : ∃ ref : ModuleRef, ref.id = 1 ∧
      evalExpr (Host.withFrames shapesModule 4) 0 shapesName importing =
        .ok (.module ref) importing := by
    obtain ⟨v, hfound, hsame⟩ := (Option.any_eq_true ..).1 hbound
    cases v with
    | module ref =>
      refine ⟨ref, (of_decide_eq_true hsame).symm, ?_⟩
      rw [shapesName, evalExpr, readName_eq, hfound]
    | _ => cases hsame
  have hstored : importing.store.module? ref = some module := by
    rw [Store.module?, href]
    exact hmodule
  obtain ⟨-, -, hread⟩ := module_visibility hoccurs shapesModule 4
  obtain ⟨hmade, -, hanswers⟩ := hread 0 shapesName ref importing module hobject hstored
  have hexports : module.exports = ["Area", "Scale"] := by rw [Module.exports, hnames]; decide +kernel
  have hprivates : module.privates = ["base", "side", "__Hidden"] := by
    rw [Module.privates, hnames]
    decide +kernel
  have harea : "Area" ∈ module.members.names := by rw [hnames]; decide
  obtain ⟨v, hv⟩ := Option.isSome_iff_exists.1 ((module.members.mem_names_iff "Area").1 harea)
  have hanswer (name : String) : module.Answers name importing (readShapes name) :=
    hanswers (Span.point Position.start) ⟨name, Span.point Position.start⟩
  refine ⟨hoccurs, module, hmodule, hmade, hexports, hprivates, ⟨v, hv, ?_⟩, ?_, by decide +kernel, ?_,
    by decide, ?_⟩
  · exact ((hanswer "Area").value_iff v importing).2 ⟨by rw [hexports]; decide, hv, rfl⟩
  · exact (hanswer "__Hidden").visibility_iff.2 (by rw [hprivates]; decide)
  · exact (hanswer "Extra").name_iff.2 (by rw [hnames]; decide)
  · exact (hanswer "len").name_iff.2 (by rw [hnames]; decide)

end ScriptLang
