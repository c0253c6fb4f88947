import ScriptLang.Diagnostic.Fault
import ScriptLang.Source.Unit

/-!
# Diagnostics

A diagnostic reports a fault: its kind, what is wrong, and as far as it is known the place and the
unit it came from. The first place and the first unit recorded are kept, because the innermost code
that sees a fault knows them best.

## Main definitions

* `Diagnostic`: a report
* `Fault.report`, `Fault.at`: the report of a cause, without and with its place
* `Diagnostic.withSpan`, `Diagnostic.withUnit`: record a place or a unit unless one is known
* `Diagnostic.summary`: the report on one line
* `Diagnostic.render`: the report with the line of text it points into
-/

namespace ScriptLang

/-- A report of what is wrong with a program or its run. -/
structure Diagnostic where
  kind : DiagnosticKind
  message : String
  /-- Where the fault lies, if it is known. -/
  span : Option Span := none
  /-- The name of the unit the fault came from, if it is known. -/
  unit : Option String := none
  /-- What the grammar asks for at that place. -/
  expected : Option String := none
  /-- The token that stands there instead. -/
  found : Option String := none
  deriving DecidableEq, Repr, Inhabited

/-- The report of a cause whose place is not known yet. -/
def Fault.report (fault : Fault) : Diagnostic :=
  let plain : Diagnostic := { kind := fault.kind, message := fault.message }
  match fault with
  | .unexpected expected found => { plain with expected := some expected, found := some found }
  | _ => plain

namespace Diagnostic

/-- Record a place, unless a more precise one is known. -/
def withSpan (d : Diagnostic) (span : Span) : Diagnostic :=
  { d with span := d.span.or (some span) }

/-- Record a unit, unless one is known. -/
def withUnit (d : Diagnostic) (unit : String) : Diagnostic :=
  { d with unit := d.unit.or (some unit) }

/-- Whether the fault was found before any code ran. -/
def isSyntax (d : Diagnostic) : Bool := d.kind.isSyntax

/-- The report on one line: kind, message and, if known, where the fault begins. -/
def summary (d : Diagnostic) : String :=
  let place := match d.span with
    | some span => s!" (at {span.text})"
    | none => ""
  s!"{d.kind.text}: {d.message}{place}"

/-- How many characters of the first line a span underlines: all it covers if it ends on that line,
one otherwise, and never none. -/
def caretWidth (span : Span) : Nat :=
  if span.stop.line = span.start.line then max (span.stop.column - span.start.column) 1 else 1

/-- A line of text between a margin with its number and carets under the columns of the span. -/
def excerpt (span : Span) (line : String) : String :=
  let number := toString span.start.line
  let margin := String.ofList (List.replicate number.length ' ')
  let indent := String.ofList (List.replicate (span.start.column - 1) ' ')
  let carets := String.ofList (List.replicate (caretWidth span) '^')
  s!"\n {margin} |\n {number} | {line}\n {margin} | {indent}{carets}"

/-- The report against a unit. If the place is known it is named, and if it lies in that unit the
line is shown with the place marked under it. -/
def render (d : Diagnostic) (source : SourceUnit) : String :=
  let head := s!"{d.kind.text}: {d.message}"
  match d.span with
  | none => head
  | some span =>
    let unit := d.unit.getD source.name
    let place := s!"{head}\n  --> {unit}:{span.text}"
    if unit = source.name then
      match source.line? span.start.line with
      | some line => place ++ excerpt span line
      | none => place
    else place

@[simp] theorem withSpan_of_some (d : Diagnostic) (s t : Span) (h : d.span = some s) :
    d.withSpan t = d := by
  cases d; simp_all [withSpan]

@[simp] theorem withUnit_of_some (d : Diagnostic) (u v : String) (h : d.unit = some u) :
    d.withUnit v = d := by
  cases d; simp_all [withUnit]

end Diagnostic

/-- The report of a cause at its place. -/
def Fault.at (fault : Fault) (span : Span) : Diagnostic := fault.report.withSpan span

@[simp] theorem Fault.report_span (fault : Fault) : fault.report.span = none := by
  cases fault <;> rfl

@[simp] theorem Fault.report_unit (fault : Fault) : fault.report.unit = none := by
  cases fault <;> rfl

@[simp] theorem Fault.at_span (fault : Fault) (span : Span) :
    (fault.at span).span = some span := by
  simp [Fault.at, Diagnostic.withSpan]

@[simp] theorem Fault.at_kind (fault : Fault) (span : Span) : (fault.at span).kind = fault.kind := by
  cases fault <;> rfl

@[simp] theorem Fault.at_unit (fault : Fault) (span : Span) : (fault.at span).unit = none := by
  cases fault <;> rfl

end ScriptLang
