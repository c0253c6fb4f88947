import ScriptLang.Diagnostic.Basic
import ScriptLang.Json.Basic
import ScriptLang.Table

/-!
# Diagnostics as JSON

The form in which diagnostics are handed to other programs: one line that holds one object. Fields
without a value are left out when writing and may be `null` when reading. Reading takes the fields in
any order and passes over fields that it does not know; a record may also be an array of all its
fields in order.

## Main definitions

* `Diagnostic.toJson`, `Diagnostic.document`: a diagnostic as a value, and as one line
* `Diagnostic.present`: a diagnostic in the form asked for
* `Diagnostic.ofJson?`, `Diagnostic.ofDocument?`: the diagnostic that is read
-/

namespace ScriptLang

/-- The fields of a span, in order. -/
def Span.fieldNames : List String := ["line", "column", "end_line", "end_column"]

/-- A span as a record of its four numbers. -/
def Span.toJson (s : Span) : Json :=
  .ofMembers <| Span.fieldNames.zip <|
    [s.start.line, s.start.column, s.stop.line, s.stop.column].map Json.ofNat

/-- The fields of a diagnostic, in order. -/
def Diagnostic.fieldNames : List String :=
  ["kind", "message", "span", "file", "expected", "found"]

/-- A diagnostic as a record of what is known. -/
def Diagnostic.toJson (d : Diagnostic) : Json :=
  let values : List (Option Json) :=
    [some (.ofText d.kind.text), some (.ofText d.message), d.span.map Span.toJson,
      d.unit.map Json.ofText, d.expected.map Json.ofText, d.found.map Json.ofText]
  .ofMembers <| (Diagnostic.fieldNames.zip values).filterMap fun (name, value) =>
    value.map fun value => (name, value)

/-- A diagnostic on one line. -/
def Diagnostic.document (d : Diagnostic) : String := d.toJson.render

/-- A diagnostic as it is reported for a unit: on one line for other programs, or with the line of
text for people. -/
def Diagnostic.present (d : Diagnostic) (asJson : Bool) (source : SourceUnit) : String :=
  if asJson then d.document else d.render source

namespace Json

/-- Whether each of the names belongs to one field at most. -/
def areDistinct (names : List String) (fields : List (String × Json)) : Bool :=
  names.all fun name => (fields.map Prod.fst).count name ≤ 1

/-- The fields of a record, none of them twice. An array has to hold all of them. -/
def record? (names : List String) (j : Json) : Option (List (String × Json)) :=
  match j.fields? names with
  | some fields =>
    if areDistinct names fields && (j.items?.all (·.length = names.length)) then some fields
    else none
  | none => none

/-- A field that must be there. -/
def required? {α : Type} (fields : List (String × Json)) (name : String)
    (read : Json → Option α) : Option α :=
  (findEntry name fields).bind read

/-- A field that may be missing or `null`. -/
def optional? {α : Type} (fields : List (String × Json)) (name : String)
    (read : Json → Option α) : Option (Option α) :=
  match findEntry name fields with
  | none | some .null => some none
  | some value => (read value).map some

end Json

/-- The bound of line and column numbers in records: they have 32 bits. -/
def placeBound : Nat := UInt32.size

/-- The span that a record holds. -/
def Span.ofJson? (j : Json) : Option Span := do
  let fields ← j.record? Span.fieldNames
  let number (name : String) : Option Nat := Json.required? fields name (·.natBelow? placeBound)
  return ⟨⟨← number "line", ← number "column"⟩, ⟨← number "end_line", ← number "end_column"⟩⟩

/-- The kind that a value names: by its word, or as an object with the word as its only field and
nothing in it. -/
def DiagnosticKind.ofJson? (j : Json) : Option DiagnosticKind :=
  match j with
  | .object [(word, .null)] => (Json.string word).text?.bind DiagnosticKind.ofText?
  | j => j.text?.bind DiagnosticKind.ofText?

/-- The diagnostic that a record holds. -/
def Diagnostic.ofJson? (j : Json) : Option Diagnostic := do
  let fields ← j.record? Diagnostic.fieldNames
  return {
    kind := ← Json.required? fields "kind" DiagnosticKind.ofJson?
    message := ← Json.required? fields "message" Json.text?
    span := ← Json.optional? fields "span" Span.ofJson?
    unit := ← Json.optional? fields "file" Json.text?
    expected := ← Json.optional? fields "expected" Json.text?
    found := ← Json.optional? fields "found" Json.text? }

/-- The diagnostic that a document holds. -/
def Diagnostic.ofDocument? (document : String) : Option Diagnostic :=
  (Json.parse? document).bind Diagnostic.ofJson?

end ScriptLang
