import ScriptLang.Interactive.Completeness
import ScriptLang.Text.Blank

/-!
# Interactive input

The inputs that lines make up. An input is the shortest run of lines that needs no more lines.
Between inputs, blank lines are passed over and a command ends the session.

## Main definitions

* `Intake`, `intake`: what becomes of a line
* `inputs`: the inputs that lines make up
-/

namespace ScriptLang

/-- The commands that end a session. -/
def endCommands : List String := [":quit", ":exit"]

/-- What becomes of a line. -/
inductive Intake where
  /-- The line ends the session. -/
  | finished
  /-- The line is blank and belongs to no input. -/
  | skipped
  /-- The lines so far need more lines. -/
  | pending (text : String)
  /-- The lines so far are an input. -/
  | complete (text : String)
  deriving DecidableEq, Repr

/-- What becomes of a line after lines that need more lines; `pending` is empty between inputs. -/
def intake (pending line : String) : Intake :=
  let word := String.ofList (Text.trim line.toList)
  if pending.isEmpty && endCommands.contains word then .finished
  else if pending.isEmpty && word.isEmpty then .skipped
  else
    let text := pending ++ line ++ "\n"
    if isIncomplete text then .pending text else .complete text

/-- The inputs that lines make up, after lines that need more lines. Lines that still need more lines
at the end are dropped. -/
def inputsAfter (pending : String) : List String → List String
  | [] => []
  | line :: lines =>
    match intake pending line with
    | .finished => []
    | .skipped => inputsAfter "" lines
    | .pending text => inputsAfter text lines
    | .complete text => text :: inputsAfter "" lines

/-- The inputs that lines make up. -/
def inputs (lines : List String) : List String := inputsAfter "" lines

end ScriptLang
