import Mathlib.Logic.Relation
import ScriptLang.Syntax.Tree

/-!
# The nodes of a tree

Expressions, functions, blocks, conditionals and statements stand in one another. What is said of all of
them is said of nodes, and what holds of a node and of all that stands in it is found by following the
children.

## Main definitions

* `Node`: an expression, a function, a block, a conditional or a statement
* `Node.children`: the nodes that stand in a node, but not in one another
* `Node.Contains`: a node is another one, or stands in it
-/

namespace ScriptLang

/-- A part of a program that has a span. -/
inductive Node where
  | expr (e : Expr)
  | function (f : Lambda)
  | block (b : Block)
  | conditional (c : Conditional)
  | stmt (s : Stmt)

/-- What a conditional does otherwise, as a node if there is one. -/
def ElseBranch.children : ElseBranch → List Node
  | absent => []
  | block body => [.block body]
  | elseIf next => [.conditional next]

namespace Node

/-- The stretch of text of a node. -/
def span : Node → Span
  | expr e => e.span
  | function f => f.span
  | block b => b.span
  | conditional c => c.span
  | stmt s => s.span

/-- The nodes that stand in a node, but not in one another, in the order in which they are written. -/
def children : Node → List Node
  | expr (.unary _ _ operand) => [expr operand]
  | expr (.binary _ left _ right) => [expr left, expr right]
  | expr (.call _ callee args) => expr callee :: args.map expr
  | expr (.member _ object _) => [expr object]
  | expr (.assignName _ _ value) => [expr value]
  | expr (.assignMember _ object _ value) => [expr object, expr value]
  | expr (.lambda _ f) => [function f]
  | expr _ => []
  | function f => [block f.body]
  | block b => b.stmts.map stmt
  | conditional (.mk condition thenBlock otherwise _) =>
    expr condition :: block thenBlock :: otherwise.children
  | stmt (.define d) => [function d.function]
  | stmt (.declareClass _ methods _) => methods.map fun d => function d.function
  | stmt (.conditional c) => [conditional c]
  | stmt (.giveBack value _) => value.toList.map expr
  | stmt (.load _ _) => []
  | stmt (.package _ _) => []
  | stmt (.block body) => [block body]
  | stmt (.expr e) => [expr e]

/-- The second node is the first one, or stands in it. -/
def Contains : Node → Node → Prop := Relation.ReflTransGen fun outer inner => inner ∈ outer.children

theorem Contains.refl (x : Node) : x.Contains x := Relation.ReflTransGen.refl

/-- What stands in a node stands in one of its children. -/
theorem contains_iff {x z : Node} : x.Contains z ↔ z = x ∨ ∃ y ∈ x.children, y.Contains z := by
  rw [Contains, Relation.ReflTransGen.cases_head_iff]
  exact or_congr_left eq_comm

/-- Parentheses leave the nodes in an expression as they are. -/
theorem children_withSpan (e : Expr) (span : Span) :
    (expr (e.withSpan span)).children = (expr e).children := by
  cases e <;> rfl

end Node

end ScriptLang
