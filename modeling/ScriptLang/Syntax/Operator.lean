/-!
# Operators

The operators of expressions, the signs they are written with, and how tightly they bind.

## Main definitions

* `UnaryOp`, `BinaryOp`: the operators and their symbols
* `BindingPower`: the levels of precedence, loosest first
-/

namespace ScriptLang

/-- The operators written before their operand. -/
inductive UnaryOp where
  | negate
  | not
  deriving DecidableEq, Repr, Inhabited

/-- The operators written between their operands. -/
inductive BinaryOp where
  | add
  | sub
  | mul
  | div
  | mod
  | eq
  | ne
  | lt
  | gt
  | le
  | ge
  | and
  | or
  deriving DecidableEq, Repr, Inhabited

/-- How tightly an operator binds; a greater number binds tighter. -/
abbrev BindingPower := Nat

namespace BindingPower

/-- The level of assignment, the loosest. -/
def assignment : BindingPower := 1

/-- The level of the operand of a unary operator. -/
def unary : BindingPower := 8

/-- The level of a call. -/
def call : BindingPower := 9

/-- The level of a member access, the tightest link. -/
def member : BindingPower := 10

end BindingPower

/-- The sign of a unary operator. -/
def UnaryOp.symbol : UnaryOp → String
  | .negate => "-"
  | .not => "!"

namespace BinaryOp

/-- Every binary operator. -/
def all : List BinaryOp := [add, sub, mul, div, mod, eq, ne, lt, gt, le, ge, and, or]

/-- The sign of a binary operator. -/
def symbol : BinaryOp → String
  | add => "+"
  | sub => "-"
  | mul => "*"
  | div => "/"
  | mod => "%"
  | eq => "=="
  | ne => "!="
  | lt => "<"
  | gt => ">"
  | le => "<="
  | ge => ">="
  | and => "&&"
  | or => "||"

/-- The operator with a given sign. -/
def ofSymbol? (symbol : String) : Option BinaryOp := all.find? (·.symbol = symbol)

/-- How tightly a binary operator binds. All of them associate to the left. -/
def power : BinaryOp → BindingPower
  | or => 2
  | and => 3
  | eq | ne => 4
  | lt | gt | le | ge => 5
  | add | sub => 6
  | mul | div | mod => 7

end BinaryOp

end ScriptLang
