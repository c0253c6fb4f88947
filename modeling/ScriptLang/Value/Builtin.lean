import ScriptLang.Text.Blank
import ScriptLang.Value.Operator

/-!
# Built-in functions

What the functions of the language itself compute. Only `print` has an effect: it writes one line.

## Main definitions

* `Value.toInt?`: the conversion to integers
* `Builtin.outcome?`: the value of a call, and the line it writes, if it writes one
-/

namespace ScriptLang

/-- The single argument of a function that takes one. -/
def Builtin.argument? (b : Builtin) : List Value → Except Fault Value
  | [v] => .ok v
  | args => .error (.arity b.name 1 args.length)

namespace Value

/-- How many characters a string has. -/
def length? : Value → Except Fault Value
  | string s => .ok (int (Int64.ofNat s.length))
  | v => .error (.noLength v.typeName)

/-- A float without its fraction. -/
def truncate? (x : Float) : Except Fault Value :=
  match Float.truncated? x with
  | some n => ofInt? (.floatRange x) n
  | none => .error (.floatNotFinite x)

/-- The conversion to integers: numbers lose their fraction, truth values are zero and one, and a
string is read as a decimal integer with white space around it. -/
def toInt? : Value → Except Fault Value
  | int n => .ok (int n)
  | bool b => .ok (int (if b then 1 else 0))
  | float x => truncate? x
  | string s =>
    match int64OfText? (Text.trim s.toList) with
    | some n => .ok (int n)
    | none => .error (.integerText s)
  | v => .error (.noInteger v.typeName)

end Value

/-- The value of a call of a built-in, and the line that the call writes. -/
def Builtin.outcome? (b : Builtin) (args : List Value) : Except Fault (Value × Option String) :=
  match b with
  | .print => .ok (.nil, some (String.intercalate " " (args.map Value.text)))
  | .len => do return (← (← b.argument? args).length?, none)
  | .str => do return (.string (← b.argument? args).text, none)
  | .int => do return (← (← b.argument? args).toInt?, none)
  | .bool => do return (.bool (← b.argument? args).isTruthy, none)
  | .type => do return (.string (← b.argument? args).typeName, none)

end ScriptLang
