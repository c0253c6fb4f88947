/-!
# Kinds of diagnostics

The classes into which diagnostics fall, each with the word that reports show for it.

## Main definitions

* `DiagnosticKind`: the classes
* `DiagnosticKind.isSyntax`: the ones that are found before a program runs
-/

namespace ScriptLang

/-- The class of a diagnostic. -/
inductive DiagnosticKind where
  | lexing
  | parsing
  | name
  | type
  | arity
  | zeroDivision
  | overflow
  | visibility
  | moduleNotFound
  | circularImport
  | stackExhausted
  deriving DecidableEq, Repr, Inhabited

namespace DiagnosticKind

/-- Every kind. -/
def all : List DiagnosticKind :=
  [lexing, parsing, name, type, arity, zeroDivision, overflow, visibility, moduleNotFound,
    circularImport, stackExhausted]

/-- The word that reports show for a kind. -/
def text : DiagnosticKind → String
  | lexing => "LexError"
  | parsing => "ParseError"
  | name => "NameError"
  | type => "TypeError"
  | arity => "ArityError"
  | zeroDivision => "ZeroDivisionError"
  | overflow => "OverflowError"
  | visibility => "VisibilityError"
  | moduleNotFound => "ModuleNotFoundError"
  | circularImport => "CircularImportError"
  | stackExhausted => "StackExhaustedError"

/-- The kind that a word stands for. -/
def ofText? (word : String) : Option DiagnosticKind := all.find? (·.text = word)

/-- Whether the fault is found before any code runs. -/
def isSyntax : DiagnosticKind → Bool
  | lexing | parsing => true
  | _ => false

theorem ofText?_text (kind : DiagnosticKind) : ofText? kind.text = some kind := by
  cases kind <;> decide +kernel

end DiagnosticKind

end ScriptLang
