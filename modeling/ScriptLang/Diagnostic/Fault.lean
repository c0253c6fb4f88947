import ScriptLang.Decimal.Text
import ScriptLang.Diagnostic.Kind
import ScriptLang.Syntax.Operator

/-!
# Faults

The causes for which text is refused or a run fails. Each cause belongs to one kind of diagnostic and
has one wording; both are given here and nowhere else.

## Main definitions

* `Fault`: the causes
* `Fault.kind`, `Fault.message`: the class and the wording of a cause
-/

namespace ScriptLang

/-- How deep expressions, blocks and alternatives may nest. -/
def nestingLimit : Nat := 256

/-- Who lacks an attribute. -/
inductive AttributeOwner where
  | instanceOf (className : String)
  | classNamed (className : String)
  | valueOf (typeName : String)
  deriving DecidableEq, Repr

/-- Why a module was not found. -/
inductive SearchFailure where
  /-- No module is registered under the name. -/
  | unregistered
  /-- None of the directories holds it. -/
  | searched (roots : List String)
  /-- The file at the path holds bytes that are no text. -/
  | notText (path : String)
  deriving DecidableEq, Repr

/-- How the owner of a missing attribute is spoken of. -/
def AttributeOwner.text : AttributeOwner → String
  | instanceOf className => s!"'{className}' instance"
  | classNamed className => s!"class '{className}'"
  | valueOf typeName => s!"value of type '{typeName}'"

/-- How a failed search is spoken of. -/
def SearchFailure.text : SearchFailure → String
  | unregistered => "no such module registered"
  | searched roots => "searched: " ++ String.intercalate ", " roots
  | notText path => s!"{path}: stream did not contain valid UTF-8"

/-- What stands between the names of an import cycle. -/
def importArrow : String := " -> "

/-- Why a program text is refused or its run fails. -/
inductive Fault where
  /- Tokens -/
  | unterminatedString
  | unterminatedComment
  | unexpectedCharacter (c : Char)
  | invalidEscape (c : Char)
  | integerLiteralRange (digits : String)
  /- Structure -/
  | unexpected (expected found : String)
  | nestingTooDeep
  | nestedPackage
  | emptyLoad
  | duplicateParameter (name : String)
  | invalidTarget
  /- Names and members -/
  | selfOutsideMethod
  | undefined (name : String)
  | noAttribute (owner : AttributeOwner) (name : String)
  | memberAssignment (name typeName : String)
  | notExported (name moduleName : String)
  | noMember (name moduleName : String)
  /- Operators -/
  | unsupportedOperands (op : BinaryOp) (left right : String)
  | unorderedOperands (op : BinaryOp) (left right : String)
  | orderOfNaN
  | lazyOperator (op : BinaryOp)
  | overflow (op : BinaryOp)
  | zeroDivision
  | zeroModulo
  | unsupportedNegation (typeName : String)
  | negationOverflow
  /- Calls -/
  | notCallable (typeName : String)
  | arity (name : String) (expected given : Nat)
  | tooManyFrames (limit : Nat)
  | noLength (typeName : String)
  | noInteger (typeName : String)
  | integerText (text : String)
  | floatNotFinite (x : Float)
  | floatRange (x : Float)
  /- Modules -/
  | circularImport (names : List String)
  | moduleNotFound (name : String) (why : SearchFailure)

namespace Fault

/-- The class of a cause. -/
def kind : Fault → DiagnosticKind
  | unterminatedString | unterminatedComment | unexpectedCharacter _ | invalidEscape _
  | integerLiteralRange _ => .lexing
  | unexpected .. | nestingTooDeep | nestedPackage | emptyLoad | duplicateParameter _
  | invalidTarget => .parsing
  | selfOutsideMethod | undefined _ | noAttribute (.instanceOf _) _
  | noAttribute (.classNamed _) _ | noMember .. => .name
  | noAttribute (.valueOf _) _ | memberAssignment .. => .type
  | notExported .. => .visibility
  | unsupportedOperands .. | unorderedOperands .. | orderOfNaN | lazyOperator _
  | unsupportedNegation _ | notCallable _ | noLength _ | noInteger _ | integerText _
  | floatNotFinite _ => .type
  | overflow _ | negationOverflow | floatRange _ => .overflow
  | zeroDivision | zeroModulo => .zeroDivision
  | arity .. => .arity
  | tooManyFrames _ => .stackExhausted
  | circularImport _ => .circularImport
  | moduleNotFound .. => .moduleNotFound

/-- The wording of a cause. -/
def message : Fault → String
  | unterminatedString => "unterminated string literal"
  | unterminatedComment => "unterminated block comment"
  | unexpectedCharacter c => s!"unexpected character '{c}'"
  | invalidEscape c => s!"invalid escape sequence '\\{c}'"
  | integerLiteralRange digits => s!"integer literal '{digits}' is out of range"
  | unexpected expected found => s!"expected {expected}, found '{found}'"
  | nestingTooDeep => s!"maximum nesting depth of {nestingLimit} exceeded"
  | nestedPackage => "'bag' declarations are only allowed at the top level"
  | emptyLoad => "load expects at least one module path"
  | duplicateParameter name => s!"duplicate parameter '{name}'"
  | invalidTarget => "invalid assignment target"
  | selfOutsideMethod => "'self' is only available inside methods"
  | undefined name => s!"undefined variable '{name}'"
  | noAttribute owner name => s!"{owner.text} has no attribute '{name}'"
  | memberAssignment name typeName =>
    s!"cannot set member '{name}' on a value of type '{typeName}'"
  | notExported name moduleName => s!"'{name}' is not exported by module '{moduleName}'"
  | noMember name moduleName => s!"module '{moduleName}' has no member '{name}'"
  | unsupportedOperands op left right =>
    s!"unsupported operand types for {op.symbol}: '{left}' and '{right}'"
  | unorderedOperands op left right =>
    s!"'{op.symbol}' not supported between '{left}' and '{right}'"
  | orderOfNaN => "cannot order NaN"
  | lazyOperator op => s!"'{op.symbol}' must be evaluated lazily"
  | overflow op => s!"integer overflow in '{op.symbol}'"
  | zeroDivision => "division by zero"
  | zeroModulo => "modulo by zero"
  | unsupportedNegation typeName => s!"bad operand type for unary -: '{typeName}'"
  | negationOverflow => "integer overflow in unary '-'"
  | notCallable typeName => s!"value of type '{typeName}' is not callable"
  | arity name expected given =>
    let plural := if expected = 1 then "" else "s"
    s!"{name}() takes {expected} argument{plural} but {given} were given"
  | tooManyFrames limit => s!"maximum call depth of {limit} exceeded"
  | noLength typeName => s!"object of type '{typeName}' has no len()"
  | noInteger typeName =>
    s!"int() argument must be a number, string or boolean, not '{typeName}'"
  | integerText text => s!"invalid literal for int(): '{text}'"
  | floatNotFinite x => s!"cannot convert float {floatText x} to integer"
  | floatRange x => s!"float {floatText x} is out of integer range"
  | circularImport names => s!"circular import detected: {String.intercalate importArrow names}"
  | moduleNotFound name why => s!"module '{name}' not found ({why.text})"
end Fault

end ScriptLang
