import ScriptLang.Source.Span

/-!
# Source units

A unit is one piece of program text with the name under which diagnostics speak of it: a script, a
module, or one input of an interactive session.

## Main definitions

* `splitLines`: the lines of a text, without the newlines that end them
* `SourceUnit.line?`: a line by its number, without carriage returns at its end
-/

namespace ScriptLang

/-- The lines of a text. A newline ends a line, so a text with `n` newlines has `n + 1` lines. -/
def splitLines (text : List Char) : List (List Char) :=
  text.foldr (fun c lines => if c = '\n' then [] :: lines else lines.modifyHead (c :: ·)) [[]]

@[simp] theorem splitLines_nil : splitLines [] = [[]] := rfl

@[simp] theorem splitLines_cons (c : Char) (text : List Char) :
    splitLines (c :: text) =
      if c = '\n' then [] :: splitLines text else (splitLines text).modifyHead (c :: ·) := rfl

/-- A text without the carriage returns at its end. -/
def dropTrailingReturns (line : List Char) : List Char :=
  (line.reverse.dropWhile (· == '\r')).reverse

/-- A piece of program text and its name in diagnostics. -/
structure SourceUnit where
  name : String
  text : String
  deriving DecidableEq, Repr, Inhabited

namespace SourceUnit

/-- The lines of a unit. -/
def lines (u : SourceUnit) : List (List Char) := splitLines u.text.toList

/-- How many lines a unit has; never zero. -/
def lineCount (u : SourceUnit) : Nat := u.lines.length

/-- A line by its number, counted from one. -/
def line? (u : SourceUnit) (number : Nat) : Option String :=
  if number = 0 then none
  else u.lines[number - 1]?.map fun line => String.ofList (dropTrailingReturns line)

end SourceUnit

end ScriptLang
