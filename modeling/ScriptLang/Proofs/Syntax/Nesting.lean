import ScriptLang.Proofs.Syntax.Printer

/-!
# What reading a written tree costs

The parser bounds how deep a tree can be by a budget. A nested expression, a block and an `if` after
`else` each take one from it for the time they are read. Each link of a chain takes one as well,
which is given back when the expression ends that the chain belongs to. What a tree costs is the
least budget with which it can be read the way it is written.

## Main definitions

* `Expr.links`: the links of the chain that an expression is read as
* `Expr.cost`, `Stmt.cost`, `Program.cost`: what reading a tree costs

## Main results

* `Expr.costOfArgs_le_iff`, `Stmt.costOfStmts_le_iff`: parts that are read one after the other cost
  as much as the most expensive of them
-/

namespace ScriptLang

namespace Expr

/-- The links taken before an expression in a place that asks for a power is read: none if
parentheses have to end its chain. -/
def linksInPlace (least power : BindingPower) (links : Nat) : Nat :=
  if power < least then 0 else links

/-- What an expression costs in a place that asks for a power: parentheses nest it. -/
def costInPlace (least power : BindingPower) (cost : Nat) : Nat :=
  if power < least then cost + 1 else cost

/-- The links of the chain that an expression is read as, from its first operand on. -/
def links : Expr → Nat
  | binary _ l op _ => linksInPlace op.power l.power l.links + 1
  | call _ f _ => linksInPlace BindingPower.call f.power f.links + 1
  | member _ e _ => linksInPlace BindingPower.call e.power e.links + 1
  | assignName _ _ _ => 1
  | assignMember _ e _ _ => linksInPlace BindingPower.call e.power e.links + 2
  | _ => 0

end Expr

mutual

/-- What the operand and the links of an expression cost. What a link holds is read when the links
up to that one have been taken. -/
def Expr.cost : Expr → Nat
  | .int _ _ | .float _ _ | .string _ _ | .bool _ _ | .nil _ | .selfRef _ | .name _ _ => 0
  | .unary _ _ e => Expr.costInPlace BindingPower.unary e.power e.cost + 1
  -- The left side is part of the chain, the right side is nested.
  | .binary _ l op r =>
    max (Expr.costInPlace op.power l.power l.cost)
      (Expr.linksInPlace op.power l.power l.links + 1 +
        (Expr.costInPlace (op.power + 1) r.power r.cost + 1))
  | .call _ f args =>
    max (Expr.costInPlace BindingPower.call f.power f.cost)
      (Expr.linksInPlace BindingPower.call f.power f.links + 1 + Expr.costOfArgs args)
  | .member _ e _ =>
    max (Expr.costInPlace BindingPower.call e.power e.cost)
      (Expr.linksInPlace BindingPower.call e.power e.links + 1)
  | .assignName _ _ value => 1 + (value.cost + 1)
  -- There are two links here, that to the member and the assignment.
  | .assignMember _ e _ value =>
    max (Expr.costInPlace BindingPower.call e.power e.cost)
      (Expr.linksInPlace BindingPower.call e.power e.links + 2 + (value.cost + 1))
  | .lambda _ f => f.cost

/-- What arguments cost, each of which is nested. -/
def Expr.costOfArgs : List Expr → Nat
  | [] => 0
  | e :: es => max (e.cost + 1) (Expr.costOfArgs es)

/-- What a function costs. -/
def Lambda.cost : Lambda → Nat
  | .mk _ body _ => body.cost

/-- What a function with a name costs. -/
def Definition.cost : Definition → Nat
  | .mk _ f => f.cost

/-- What methods cost. -/
def Definition.costOfMethods : List Definition → Nat
  | [] => 0
  | d :: ds => max d.cost (Definition.costOfMethods ds)

/-- What a block costs, which is nested. -/
def Block.cost : Block → Nat
  | .mk stmts _ => Stmt.costOfStmts stmts + 1

/-- What a conditional costs. -/
def Conditional.cost : Conditional → Nat
  | .mk condition thenBlock otherwise _ =>
    max (condition.cost + 1) (max thenBlock.cost otherwise.cost)

/-- What the other branch of a conditional costs. Another conditional is nested. -/
def ElseBranch.cost : ElseBranch → Nat
  | .absent => 0
  | .block body => body.cost
  | .elseIf next => next.cost + 1

/-- What a statement costs. -/
def Stmt.cost : Stmt → Nat
  | .define d => d.cost
  | .declareClass _ methods _ => Definition.costOfMethods methods
  -- Only an `if` after `else` is nested, one that is a statement is not.
  | .conditional c => c.cost
  | .giveBack none _ => 0
  | .giveBack (some e) _ => e.cost + 1
  | .load _ _ => 0
  | .package _ _ => 0
  | .block body => body.cost
  | .expr e => e.cost + 1

/-- What statements cost. -/
def Stmt.costOfStmts : List Stmt → Nat
  | [] => 0
  | s :: rest => max s.cost (Stmt.costOfStmts rest)

end

/-- What a program costs. -/
def Program.cost (p : Program) : Nat := Stmt.costOfStmts p.stmts

theorem Expr.costOfArgs_le_iff {es : List Expr} {budget : Nat} :
    costOfArgs es ≤ budget ↔ ∀ e ∈ es, e.cost + 1 ≤ budget := by
  induction es with
  | nil => simp [costOfArgs]
  | cons e es ih => rw [costOfArgs, Nat.max_le, ih, List.forall_mem_cons]

theorem Definition.costOfMethods_le_iff {ds : List Definition} {budget : Nat} :
    costOfMethods ds ≤ budget ↔ ∀ d ∈ ds, d.cost ≤ budget := by
  induction ds with
  | nil => simp [costOfMethods]
  | cons d ds ih => rw [costOfMethods, Nat.max_le, ih, List.forall_mem_cons]

theorem Stmt.costOfStmts_le_iff {stmts : List Stmt} {budget : Nat} :
    costOfStmts stmts ≤ budget ↔ ∀ s ∈ stmts, s.cost ≤ budget := by
  induction stmts with
  | nil => simp [costOfStmts]
  | cons s rest ih => rw [costOfStmts, Nat.max_le, ih, List.forall_mem_cons]

end ScriptLang
