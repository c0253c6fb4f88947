import ScriptLang.Diagnostic.Fault
import ScriptLang.Value.Basic

/-!
# Operators on values

Integer arithmetic is exact or fails: there is no wrapping. An integer beside a float is rounded to
the nearest float first, and a quotient is always a float. Numbers compare across their two kinds,
strings by code points, and everything that is made while a program runs by identity.

## Main definitions

* `Value.same`: equality
* `Value.binary?`, `Value.negate?`: the operators that evaluate all their operands
-/

namespace ScriptLang

/-- Two numbers brought to one kind. -/
inductive NumberPair where
  | ints (a b : Int64)
  | floats (x y : Float)

/-- The float nearest to an integer. -/
def floatOfInt64 (n : Int64) : Float := Float.ofInt n.toInt

/-- Two values as numbers of one kind, if they are numbers. -/
def NumberPair.of? : Value → Value → Option NumberPair
  | .int a, .int b => some (.ints a b)
  | .int a, .float y => some (.floats (floatOfInt64 a) y)
  | .float x, .int b => some (.floats x (floatOfInt64 b))
  | .float x, .float y => some (.floats x y)
  | _, _ => none

namespace Value

/-- Equality of values. Different kinds are never equal, but for the two kinds of numbers. -/
def same : Value → Value → Bool
  | int a, int b => a = b
  | float x, float y => x == y
  | int a, float y => floatOfInt64 a == y
  | float x, int b => floatOfInt64 b == x
  | string s, string t => s = t
  | bool a, bool b => a = b
  | nil, nil => true
  | function f, function g => f.id = g.id
  | method m, method n => m.receiver.fields = n.receiver.fields ∧ m.method.id = n.method.id
  | builtin a, builtin b => a = b
  | ofClass c, ofClass d => c.id = d.id
  | object i, object j => i.fields = j.fields
  | module m, module n => m.id = n.id
  | _, _ => false

/-- The order of two values under a comparison: of two numbers or of two strings. -/
def order? (op : BinaryOp) (left right : Value) : Except Fault Ordering :=
  match left, right with
  | string s, string t => .ok (if s < t then .lt else if s = t then .eq else .gt)
  | _, _ =>
    match NumberPair.of? left right with
    | some (.ints a b) => .ok (compare a.toInt b.toInt)
    | some (.floats x y) =>
      if x < y then .ok .lt
      else if x == y then .ok .eq
      else if y < x then .ok .gt
      else .error .orderOfNaN
    | none => .error (.unorderedOperands op left.typeName right.typeName)

/-- An integer result, unless it is out of range. -/
def ofInt? (fault : Fault) (n : Int) : Except Fault Value :=
  match int64OfInt? n with
  | some i => .ok (int i)
  | none => .error fault

/-- The quotient of two floats. -/
def quotient? (x y : Float) : Except Fault Value :=
  if y == 0.0 then .error .zeroDivision else .ok (float (x / y))

/-- The remainder of two integers, with the sign of the dividend. The one whose quotient is out of
range fails, although the remainder itself is zero. -/
def remainder? (a b : Int64) : Except Fault Value :=
  if b = 0 then .error .zeroModulo
  else if (int64OfInt? (Int.tdiv a.toInt b.toInt)).isNone then .error (.overflow .mod)
  else ofInt? (.overflow .mod) (Int.tmod a.toInt b.toInt)

/-- The remainder of two floats, with the sign of the dividend. -/
def floatRemainder? (x y : Float) : Except Fault Value :=
  if y == 0.0 then .error .zeroModulo else .ok (float (Float.remainder x y))

/-- Arithmetic on two numbers. -/
def arithmetic? (op : BinaryOp) (left right : Value) : Except Fault Value :=
  match NumberPair.of? left right, op with
  | some (.ints a b), .add => ofInt? (.overflow op) (a.toInt + b.toInt)
  | some (.ints a b), .sub => ofInt? (.overflow op) (a.toInt - b.toInt)
  | some (.ints a b), .mul => ofInt? (.overflow op) (a.toInt * b.toInt)
  | some (.ints a b), .div => quotient? (floatOfInt64 a) (floatOfInt64 b)
  | some (.ints a b), .mod => remainder? a b
  | some (.floats x y), .add => .ok (float (x + y))
  | some (.floats x y), .sub => .ok (float (x - y))
  | some (.floats x y), .mul => .ok (float (x * y))
  | some (.floats x y), .div => quotient? x y
  | some (.floats x y), .mod => floatRemainder? x y
  | _, _ => .error (.unsupportedOperands op left.typeName right.typeName)

/-- A binary operator on two values. The logical operators are not among them: whether they need
their right operand depends on the left one. -/
def binary? (op : BinaryOp) (left right : Value) : Except Fault Value :=
  match op with
  | .eq => .ok (bool (same left right))
  | .ne => .ok (bool (!same left right))
  | .lt => (order? op left right).map fun o => bool (o == .lt)
  | .gt => (order? op left right).map fun o => bool (o == .gt)
  | .le => (order? op left right).map fun o => bool (o != .gt)
  | .ge => (order? op left right).map fun o => bool (o != .lt)
  | .and | .or => .error (.lazyOperator op)
  | .add =>
    match left, right with
    | string s, string t => .ok (string (s ++ t))
    | _, _ => arithmetic? op left right
  | .sub | .mul | .div | .mod => arithmetic? op left right

/-- The unary minus. -/
def negate? : Value → Except Fault Value
  | int n => ofInt? .negationOverflow (-n.toInt)
  | float x => .ok (float (-x))
  | v => .error (.unsupportedNegation v.typeName)

end Value

end ScriptLang
