import Mathlib.Data.List.Induction
import ScriptLang.Interactive.LineLoop
import ScriptLang.Proofs.Eval.Run

/-!
# An interactive session, input by input

Between two inputs a session is a machine, the scope of all inputs and the reports so far. What an
input does to it is what the evaluation of the input does to the machine; the files with the modules
may be other ones at every input, so each comes with the setting of its time.

## Main definitions

* `LineLoop.after`: a session after some inputs
* `LineLoop.result`: the value of an input, or the fault that it ends with

## Main results

* `LineLoop.after_induction`: what every input preserves holds after all inputs
* `LineLoop.run_eq_after`: lines are evaluated as the inputs that they make up
* `LineLoop.store_evaluate`, `LineLoop.reports_evaluate`: the store after an input, and its report
-/

namespace ScriptLang.LineLoop

/-- A session after some inputs, each evaluated in the setting of its time. -/
def after (asJson : Bool) (inputs : List (Setting × String)) (loop : LineLoop) : LineLoop :=
  inputs.foldl (fun loop (setting, input) => loop.evaluate setting asJson input) loop

/-- The value of an input, or the fault that it ends with. -/
def result (setting : Setting) (loop : LineLoop) (input : String) : Except Diagnostic Value :=
  (Session.perform loop.machine (Session.evaluate setting ⟨inputName, input⟩ loop.scope)).1

/-- What every input preserves holds after all inputs. What is preserved may tell which inputs there
have been. -/
theorem after_induction {P : List (Setting × String) → LineLoop → Prop} {asJson : Bool}
    {loop : LineLoop} (hstart : P [] loop)
    (hstep : ∀ earlier setting input loop, P earlier loop →
      P (earlier ++ [(setting, input)]) (loop.evaluate setting asJson input))
    (inputs : List (Setting × String)) : P inputs (loop.after asJson inputs) := by
  induction inputs using List.reverseRecOn with
  | nil => exact hstart
  | append_singleton earlier last ih =>
    rw [after, List.foldl_append]
    exact hstep earlier last.1 last.2 _ ih

theorem run_eq_after (setting : Setting) (asJson : Bool) (loop : LineLoop) (lines : List String) :
    loop.run setting asJson lines = loop.after asJson ((inputs lines).map (setting, ·)) := by
  rw [run, after, List.foldl_map]

section Evaluate

variable (setting : Setting) (asJson : Bool) (loop : LineLoop) (input : String)

/-- An input leaves the store that its evaluation leaves. -/
theorem store_evaluate : (loop.evaluate setting asJson input).machine.store =
    ((Session.evaluate setting ⟨inputName, input⟩ loop.scope).after loop.machine).store := by
  rw [evaluate, Session.perform, Eval.after]
  cases Session.evaluate setting ⟨inputName, input⟩ loop.scope loop.machine with
  | ok v m => cases v <;> rfl
  | error d m => rfl

/-- A fault is the result of an input exactly if the evaluation of the input ends with it. -/
theorem result_eq_error {d : Diagnostic} : loop.result setting input = .error d ↔
    ∃ m, Session.evaluate setting ⟨inputName, input⟩ loop.scope loop.machine = .error d m := by
  rw [result, Session.perform]
  cases Session.evaluate setting ⟨inputName, input⟩ loop.scope loop.machine with
  | ok v m => simp
  | error d' m => simp

/-- A fault is reported against the input that was evaluated. -/
theorem reports_evaluate {d : Diagnostic} (h : loop.result setting input = .error d) :
    (loop.evaluate setting asJson input).reports =
      loop.reports.push (d.present asJson ⟨inputName, input⟩) := by
  rw [result] at h
  rw [evaluate]
  dsimp only
  rw [h]

end Evaluate

end ScriptLang.LineLoop
