import ScriptLang.CommandLine
import ScriptLang.Proofs.Interactive.Inputs
import ScriptLang.Proofs.Session.Termination

/-!
# Whether lines are held back cannot be seen

Printed lines are written at once, or held back until the script or the input has ended. What is
written in the end does not show which, nor do the reports and the results: all that code does with the
output is to print lines on it, so the lines of a run do not depend on what becomes of them, and those
held back are written before anything else is.

## Main definitions

* `Eval.OnlyPrints`: printing lines is all that a computation does with the output
* `Machine.withEcho`, `Script.withEcho`, `LineLoop.withEcho`: the same, with printed lines written at
  once or held back

## Main results

* `Session.evaluate_onlyPrints`: all that the evaluation of a unit does with the output is to print
* `Session.perform_withEcho`: with the lines written in the end, one way comes to the same as the other
* `echo_invisible`: scripts, interactive sessions and the command
-/

namespace ScriptLang

/-! ### Lines on an output -/

namespace Output

/-- Print lines one after the other. -/
def emitAll (o : Output) (lines : List String) : Output := lines.foldl emit o

theorem emitAll_append (o : Output) (front back : List String) :
    o.emitAll (front ++ back) = (o.emitAll front).emitAll back := List.foldl_append

/-- Lines go where the output sends them, behind those that are there. -/
theorem emitAll_eq (o : Output) (lines : List String) :
    o.emitAll lines =
      if o.echo then { o with written := o.written ++ lines.toArray }
      else { o with held := o.held ++ lines.toArray } := by
  induction lines generalizing o with
  | nil => simp [emitAll]
  | cons line lines ih =>
    change (o.emit line).emitAll lines = _
    rw [ih, emit]
    by_cases hecho : o.echo = true
    · simp [hecho]
    · simp [hecho]

/-- The output with printed lines written at once or held back. -/
def withEcho (o : Output) (echo : Bool) : Output := { o with echo := echo }

/-- Once the lines held back are written, all lines are written, in the order they were printed. -/
theorem flush_emitAll {o : Output} (h : o.held = #[]) (lines : List String) :
    (o.emitAll lines).flush = { o with written := o.written ++ lines.toArray } := by
  rw [emitAll_eq]
  split <;> simp [flush, h]

end Output

/-! ### Computations that only print -/

/-- The machine with another output. -/
def Machine.withOutput (m : Machine) (o : Output) : Machine := { m with output := o }

@[simp] theorem Machine.withOutput_output (m : Machine) : m.withOutput m.output = m := rfl

/-- Printing lines is all that the computation does with the output: it does the same on every output,
and prints the same lines there. -/
inductive Eval.OnlyPrintsFrom {α : Type} (e : Eval α) (m : Machine) : Prop where
  | ok (lines : List String) (a : α) (m' : Machine) :
    (∀ o, e (m.withOutput o) = .ok a (m'.withOutput (o.emitAll lines))) → OnlyPrintsFrom e m
  | error (lines : List String) (d : Diagnostic) (m' : Machine) :
    (∀ o, e (m.withOutput o) = .error d (m'.withOutput (o.emitAll lines))) → OnlyPrintsFrom e m

/-- The same from every machine. -/
def Eval.OnlyPrints {α : Type} (e : Eval α) : Prop := ∀ m, e.OnlyPrintsFrom m

namespace Eval.OnlyPrints

variable {α β : Type} {e : Eval α}

theorem bind {k : α → Eval β} (he : e.OnlyPrints) (hk : ∀ a, (k a).OnlyPrints) :
    (e >>= k).OnlyPrints := by
  intro m
  cases he m with
  | error lines d m' hrun => exact .error lines d m' fun o => by rw [bind_eq, hrun]
  | ok lines a m' hrun =>
    -- The second computation prints behind the lines of the first.
    cases hk a m' with
    | ok lines' b m'' hrun' =>
      refine .ok (lines ++ lines') b m'' fun o => ?_
      rw [bind_eq, hrun, Output.emitAll_append]
      exact hrun' _
    | error lines' d m'' hrun' =>
      refine .error (lines ++ lines') d m'' fun o => ?_
      rw [bind_eq, hrun, Output.emitAll_append]
      exact hrun' _

theorem mapDiagnostic (f : Diagnostic → Diagnostic) (he : e.OnlyPrints) :
    (Eval.mapDiagnostic f e).OnlyPrints := by
  intro m
  cases he m with
  | ok lines a m' hrun => exact .ok lines a m' fun o => by rw [Eval.mapDiagnostic, hrun]
  | error lines d m' hrun => exact .error lines (f d) m' fun o => by rw [Eval.mapDiagnostic, hrun]

theorem inUnit (unit : String) (he : e.OnlyPrints) : (Eval.inUnit unit e).OnlyPrints := by
  intro m
  -- The name of the unit and the output are set apart from each other.
  have houtput (o : Output) : { m.withOutput o with unit := unit } =
    { m with unit := unit }.withOutput o := rfl
  cases he { m with unit := unit } with
  | ok lines a m' hrun =>
    refine .ok lines a { m' with unit := m.unit } fun o => ?_
    rw [Eval.inUnit, houtput, hrun]
    rfl
  | error lines d m' hrun =>
    refine .error lines (d.withUnit unit) { m' with unit := m.unit } fun o => ?_
    rw [Eval.inUnit, houtput, hrun]
    rfl

theorem inFrame (he : e.OnlyPrints) : (Eval.inFrame e).OnlyPrints := by
  intro m
  have houtput (o : Output) : { m.withOutput o with depth := (m.withOutput o).depth + 1 } =
    { m with depth := m.depth + 1 }.withOutput o := rfl
  cases he { m with depth := m.depth + 1 } with
  | ok lines a m' hrun =>
    refine .ok lines a { m' with depth := m.depth } fun o => ?_
    rw [Eval.inFrame, houtput, hrun]
    rfl
  | error lines d m' hrun =>
    refine .error lines d { m' with depth := m.depth } fun o => ?_
    rw [Eval.inFrame, houtput, hrun]
    rfl

theorem throw (d : Diagnostic) : (MonadExcept.throw d : Eval α).OnlyPrints :=
  fun m => .error [] d m fun _ => rfl

theorem congruence : Congruence fun _ e _ => Eval.OnlyPrints e where
  pure a m := .ok [] a m fun _ => rfl
  throw := throw
  bind := bind
  withSpan _ := mapDiagnostic _
  inUnit := inUnit
  readStore f m := .ok [] (f m.store) m fun _ => rfl
  unitName m := .ok [] m.unit m fun _ => rfl
  define scope name v m := .ok [] () { m with store := m.store.define scope name v } fun _ => rfl
  assign scope name v m := .ok [] () { m with store := m.store.assign scope name v } fun _ => rfl
  newScope parent table m :=
    .ok [] (m.store.newScope parent table).1 { m with store := (m.store.newScope parent table).2 }
      fun _ => rfl
  newObject m := .ok [] m.store.newObject.1 { m with store := m.store.newObject.2 } fun _ => rfl
  print line m := .ok [line] () m fun _ => rfl

/-- A load asks the resolver and the registry, and neither looks at the output. -/
theorem loadModule (resolve : Resolver) (name : String) {evaluate : SourceUnit → Eval Module}
    (h : ∀ source, (evaluate source).OnlyPrints) :
    (loadModule resolve name evaluate).OnlyPrints := by
  intro m
  cases hresolve : resolve name with
  | error d => exact .error [] d m fun o => by rw [loadModule_eq, hresolve]; rfl
  | ok found =>
    have hregistry (o : Output) : (m.withOutput o).registry = m.registry := rfl
    cases hstart : m.registry.start? found.key (bareName name) with
    | error fault =>
      refine .error [] fault.report (m.record (.refused found.key)) fun o => ?_
      simp only [loadModule_eq, hresolve, hregistry, hstart]
      rfl
    | ok start =>
      cases start with
      | cached ref =>
        refine .ok [] ref (m.record (.reused found.key ref)) fun o => ?_
        simp only [loadModule_eq, hresolve, hregistry, hstart]
        rfl
      | started registry =>
        have hbegin (o : Output) : (m.withOutput o).beginLoad found registry =
          (m.beginLoad found registry).withOutput o := rfl
        cases h ⟨found.key, found.text⟩ (m.beginLoad found registry) with
        | ok lines module m' hrun =>
          refine .ok lines (m'.store.addModule module).1
            ({ m' with store := (m'.store.addModule module).2 }.completeLoad found.key
              (m'.store.addModule module).1) fun o => ?_
          simp only [loadModule_eq, hresolve, hregistry, hstart, followStart_started, hbegin, hrun]
          rfl
        | error lines d m' hrun =>
          refine .error lines d (m'.abortLoad found.key) fun o => ?_
          simp only [loadModule_eq, hresolve, hregistry, hstart, followStart_started, hbegin, hrun]
          rfl

theorem hosts (setting : Setting) (frames : Nat) :
    Congruence.Hosts (fun _ e _ => Eval.OnlyPrints e) (Host.withFrames setting frames)
      (Host.withFrames setting frames) := by
  -- A frame runs code on a host with one frame less, so the induction is on the frames left.
  induction frames with
  | zero =>
    constructor
    · intro callee args span
      exact throw _
    · intro name
      rw [Host.load_withFrames_zero]
      exact loadModule _ _ fun _ => throw _
  | succ frames ih =>
    constructor
    · intro callee args span
      exact inFrame (congruence.applyValue ih callee args span)
    · intro name
      rw [Host.load_withFrames_succ]
      exact loadModule _ _ fun source => inFrame (congruence.evalModule ih (bareName name) source)

end Eval.OnlyPrints

/-! ### Requests -/

namespace Session

theorem newRoot_onlyPrints : newRoot.OnlyPrints := Eval.OnlyPrints.congruence.newScope _ _

/-- All that the evaluation of a unit does with the output is to print. -/
theorem evaluate_onlyPrints (setting : Setting) (source : SourceUnit) (scope : ScopeId) :
    (evaluate setting source scope).OnlyPrints := by
  intro m
  rw [evaluate]
  cases Program.parse source with
  | error d => exact Eval.OnlyPrints.throw d m
  | ok program =>
    -- The frames left depend on the counter, which is the same on every output.
    have hosts := Eval.OnlyPrints.hosts setting (setting.maxFrames - m.depth)
    cases Eval.OnlyPrints.congruence.runProgram hosts program scope source.name m with
    | ok lines v m' hrun => exact .ok lines v m' hrun
    | error lines d m' hrun => exact .error lines d m' hrun

end Session

/-- The machine with printed lines written at once or held back. -/
def Machine.withEcho (m : Machine) (echo : Bool) : Machine := m.withOutput (m.output.withEcho echo)

namespace Session

variable {α : Type} {body : Eval α} {m : Machine}

/-- No line is left that is held back. -/
theorem held_perform (body : Eval α) (m : Machine) : (perform m body).2.output.held = #[] := by
  rw [perform]
  cases body m <;> rfl

/-- Where nothing was held back, one way of printing comes to the same as the other: the result, the
lines written in the end and their order do not depend on it. -/
theorem perform_withEcho (hbody : body.OnlyPrints) (hheld : m.output.held = #[]) (echo : Bool) :
    perform (m.withEcho echo) body =
      ((perform m body).1, (perform m body).2.withEcho echo) := by
  obtain ⟨lines, a, m', hrun⟩ | ⟨lines, d, m', hrun⟩ := hbody m
  -- A value or a fault, the lines are the same, and they are written when the body has ended.
  all_goals
    have hleft := hrun m.output
    have hright := hrun (m.output.withEcho echo)
    rw [Machine.withOutput_output] at hleft
    simp only [perform, Machine.withEcho, hleft, hright]
    simp [Machine.withOutput, Output.flush_emitAll, Output.withEcho, hheld]

end Session

/-! ### Scripts, interactive sessions and the command -/

/-- The settings with printed lines written at once or held back. -/
def Config.withEcho (config : Config) (echo : Bool) : Config := { config with echoPrint := echo }

/-- The script with printed lines written at once or held back. -/
def Script.withEcho (script : Script) (echo : Bool) : Script :=
  { script with machine := script.machine.withEcho echo }

theorem Script.run_withEcho (tree : FileTree) (config : Config) (path : Path) (echo : Bool) :
    Script.run tree (config.withEcho echo) path =
      (Script.run tree config path).map (·.withEcho echo) := by
  rw [Script.run, Script.run]
  cases tree.read path with
  | error why => rfl
  | ok text =>
    have hbody : Eval.OnlyPrints (do
        Session.evaluate (config.setting tree) ⟨path, text⟩ (← Session.newRoot)) :=
      Session.newRoot_onlyPrints.bind fun scope => Session.evaluate_onlyPrints _ _ scope
    have hheld : config.machine.output.held = #[] := rfl
    have hperform := Session.perform_withEcho hbody hheld echo
    have hsetting : (config.withEcho echo).setting tree = config.setting tree := rfl
    have hmachine : (config.withEcho echo).machine = config.machine.withEcho echo := rfl
    simp only [hsetting, hmachine, hperform]
    rfl

/-- A script leaves no line that is held back, if there is a script to run. -/
theorem Script.held_run (tree : FileTree) (config config' : Config) (path : Path) :
    ((Script.run tree config path).map fun script => script.machine.output.held) =
      (Script.run tree config' path).map fun _ => #[] := by
  rw [Script.run, Script.run]
  cases tree.read path with
  | error why => rfl
  | ok text => exact congrArg Except.ok (Session.held_perform _ _)

namespace LineLoop

/-- The session with printed lines written at once or held back. -/
def withEcho (loop : LineLoop) (echo : Bool) : LineLoop :=
  { loop with machine := loop.machine.withEcho echo }

theorem start_withEcho (config : Config) (echo : Bool) :
    start (config.withEcho echo) = (start config).withEcho echo := rfl

theorem evaluate_withEcho (setting : Setting) (asJson : Bool) {loop : LineLoop}
    (hheld : loop.machine.output.held = #[]) (input : String) (echo : Bool) :
    (loop.withEcho echo).evaluate setting asJson input =
      (loop.evaluate setting asJson input).withEcho echo := by
  have hperform := Session.perform_withEcho
    (Session.evaluate_onlyPrints setting ⟨inputName, input⟩ loop.scope) hheld echo
  simp only [evaluate, withEcho, hperform]
  split <;> rfl

theorem held_evaluate (setting : Setting) (asJson : Bool) (loop : LineLoop) (input : String) :
    (loop.evaluate setting asJson input).machine.output.held = #[] := by
  have hheld := Session.held_perform (Session.evaluate setting ⟨inputName, input⟩ loop.scope)
    loop.machine
  rw [evaluate]
  dsimp only
  split
  · exact hheld
  · exact hheld
  · exact hheld

/-- Nothing is held back between two inputs, so one way comes to the same as the other from input to
input. -/
theorem after_withEcho (asJson : Bool) (inputs : List (Setting × String)) {loop : LineLoop}
    (hheld : loop.machine.output.held = #[]) (echo : Bool) :
    (loop.withEcho echo).after asJson inputs = (loop.after asJson inputs).withEcho echo ∧
      (loop.after asJson inputs).machine.output.held = #[] := by
  induction inputs generalizing loop with
  | nil => exact ⟨rfl, hheld⟩
  | cons entry inputs ih =>
    have hnext := ih (held_evaluate entry.1 asJson loop entry.2)
    rw [← evaluate_withEcho entry.1 asJson hheld] at hnext
    exact hnext

theorem result_withEcho (setting : Setting) {loop : LineLoop}
    (hheld : loop.machine.output.held = #[]) (input : String) (echo : Bool) :
    (loop.withEcho echo).result setting input = loop.result setting input := by
  have hperform := Session.perform_withEcho
    (Session.evaluate_onlyPrints setting ⟨inputName, input⟩ loop.scope) hheld echo
  simp only [result, withEcho, hperform]

end LineLoop

namespace CommandLine

theorem runScript_withEcho (tree : FileTree) (config : Config) (asJson : Bool) (path : Path)
    (echo : Bool) :
    runScript tree (config.withEcho echo) asJson path = runScript tree config asJson path := by
  rw [runScript, runScript, Script.run_withEcho]
  cases Script.run tree config path with
  | error why => rfl
  | ok script => rfl

theorem runSession_withEcho (tree : FileTree) (config : Config) (asJson : Bool) (input : String)
    (echo : Bool) :
    runSession tree (config.withEcho echo) asJson input = runSession tree config asJson input := by
  have hrun : (LineLoop.start (config.withEcho echo)).run (config.setting tree) asJson
      (typedLines input) =
        ((LineLoop.start config).run (config.setting tree) asJson (typedLines input)).withEcho echo := by
    rw [LineLoop.run_eq_after, LineLoop.run_eq_after, LineLoop.start_withEcho]
    exact (LineLoop.after_withEcho asJson _ rfl echo).1
  have hsetting : (config.withEcho echo).setting tree = config.setting tree := rfl
  rw [runSession, runSession, hsetting, hrun]
  rfl

end CommandLine

/-- **Whether lines are held back cannot be seen.** Written at once or held back, the printed lines of
a script and of the inputs of an interactive session are the same lines in the same order; results,
reports and everything else are the same as well, and no line is left behind. -/
theorem echo_invisible (tree : FileTree) (config : Config) :
    (∀ path,
      Script.run tree (config.withEcho false) path =
          (Script.run tree (config.withEcho true) path).map (·.withEcho false) ∧
        ((Script.run tree (config.withEcho false) path).map fun script =>
            script.machine.output.held) =
          (Script.run tree (config.withEcho true) path).map fun _ => #[]) ∧
    (∀ (asJson : Bool) (inputs : List (Setting × String)),
      let on := (LineLoop.start (config.withEcho true)).after asJson inputs
      let off := (LineLoop.start (config.withEcho false)).after asJson inputs
      off = on.withEcho false ∧ off.machine.output.held = #[] ∧
        ∀ setting next, off.result setting next = on.result setting next) ∧
    ∀ asJson text,
      CommandLine.runScript tree (config.withEcho false) asJson text =
          CommandLine.runScript tree (config.withEcho true) asJson text ∧
        CommandLine.runSession tree (config.withEcho false) asJson text =
          CommandLine.runSession tree (config.withEcho true) asJson text := by
  have hsettings : config.withEcho false = (config.withEcho true).withEcho false := rfl
  refine ⟨fun path => ⟨?_, Script.held_run tree _ _ path⟩, fun asJson inputs => ?_,
    fun asJson text => ⟨?_, ?_⟩⟩
  · rw [hsettings]
    exact Script.run_withEcho tree _ path false
  · have hheld : (LineLoop.start (config.withEcho true)).machine.output.held = #[] := rfl
    obtain ⟨hloop, hafter⟩ := LineLoop.after_withEcho asJson inputs hheld false
    rw [← LineLoop.start_withEcho, ← hsettings] at hloop
    refine ⟨hloop, ?_, fun setting next => ?_⟩
    · rw [hloop]
      exact hafter
    · rw [hloop]
      exact LineLoop.result_withEcho setting hafter next false
  · rw [hsettings]
    exact CommandLine.runScript_withEcho tree _ asJson text false
  · rw [hsettings]
    exact CommandLine.runSession_withEcho tree _ asJson text false

end ScriptLang
