import ScriptLang.Source.Span
import ScriptLang.Syntax.Operator

/-!
# Programs as trees

The statements and expressions of the language. Every node records the stretch of text it was read
from; parentheses leave no node, they widen the span of the expression inside.

## Main definitions

* `Expr`, `Stmt`, `Block`, `Conditional`: the nodes
* `Lambda`, `Definition`: functions without and with a name
* `Program`: the statements of one unit
-/

namespace ScriptLang

/-- The name under which a method receives the object it is called on. -/
def selfName : String := "self"

/-- A name and where it stands. -/
structure Ident where
  name : String
  span : Span
  deriving DecidableEq, Repr, Inhabited

/-- The name of a module to load and where it stands. -/
structure ModulePath where
  path : String
  span : Span
  deriving DecidableEq, Repr, Inhabited

mutual

/-- An expression. The first field of each form is its span. -/
inductive Expr where
  | int (span : Span) (n : Int64)
  | float (span : Span) (x : Float)
  | string (span : Span) (s : String)
  | bool (span : Span) (b : Bool)
  | nil (span : Span)
  | selfRef (span : Span)
  | name (span : Span) (name : String)
  | unary (span : Span) (op : UnaryOp) (operand : Expr)
  | binary (span : Span) (left : Expr) (op : BinaryOp) (right : Expr)
  | call (span : Span) (callee : Expr) (args : List Expr)
  | member (span : Span) (object : Expr) (member : Ident)
  | assignName (span : Span) (target : Ident) (value : Expr)
  | assignMember (span : Span) (object : Expr) (member : Ident) (value : Expr)
  | lambda (span : Span) (function : Lambda)

/-- A function: parameters and body. Its span begins at the word `fx`. -/
inductive Lambda where
  | mk (params : List Ident) (body : Block) (span : Span)

/-- A function with a name: a statement, or a method of a class. -/
inductive Definition where
  | mk (name : Ident) (function : Lambda)

/-- Statements between braces. -/
inductive Block where
  | mk (stmts : List Stmt) (span : Span)

/-- A condition, what to do if it holds, and what to do otherwise. -/
inductive Conditional where
  | mk (condition : Expr) (thenBlock : Block) (otherwise : ElseBranch) (span : Span)

/-- What a conditional does if its condition does not hold. -/
inductive ElseBranch where
  | absent
  | block (body : Block)
  | elseIf (next : Conditional)

/-- A statement. -/
inductive Stmt where
  | define (definition : Definition)
  | declareClass (name : Ident) (methods : List Definition) (span : Span)
  | conditional (c : Conditional)
  | giveBack (value : Option Expr) (span : Span)
  | load (paths : List ModulePath) (span : Span)
  | package (name : Ident) (span : Span)
  | block (body : Block)
  | expr (e : Expr)

end

instance : Inhabited Expr := ⟨.nil default⟩

/-- The statements of one unit. -/
structure Program where
  stmts : List Stmt
  span : Span

namespace Expr

/-- The stretch of text of an expression. -/
def span : Expr → Span
  | int s _ | float s _ | string s _ | bool s _ | nil s | selfRef s | name s _ | unary s _ _
  | binary s _ _ _ | call s _ _ | member s _ _ | assignName s _ _ | assignMember s _ _ _
  | lambda s _ => s

/-- The same expression over another stretch of text. -/
def withSpan (s : Span) : Expr → Expr
  | int _ n => int s n
  | float _ x => float s x
  | string _ t => string s t
  | bool _ b => bool s b
  | nil _ => nil s
  | selfRef _ => selfRef s
  | name _ n => name s n
  | unary _ op e => unary s op e
  | binary _ l op r => binary s l op r
  | call _ f args => call s f args
  | member _ e m => member s e m
  | assignName _ t v => assignName s t v
  | assignMember _ e m v => assignMember s e m v
  | lambda _ f => lambda s f

@[simp] theorem span_withSpan (s : Span) (e : Expr) : (e.withSpan s).span = s := by
  cases e <;> rfl

end Expr

namespace Lambda

/-- The parameters of a function. -/
def params : Lambda → List Ident
  | mk params _ _ => params

/-- The body of a function. -/
def body : Lambda → Block
  | mk _ body _ => body

/-- The stretch of text of a function. -/
def span : Lambda → Span
  | mk _ _ span => span

/-- How many parameters a function declares. -/
def arity (f : Lambda) : Nat := f.params.length

end Lambda

namespace Definition

/-- The name that is defined. -/
def name : Definition → Ident
  | mk name _ => name

/-- The function that the name stands for. -/
def function : Definition → Lambda
  | mk _ function => function

end Definition

namespace Block

/-- The statements of a block. -/
def stmts : Block → List Stmt
  | mk stmts _ => stmts

/-- The stretch of text of a block, braces included. -/
def span : Block → Span
  | mk _ span => span

end Block

namespace Conditional

/-- The stretch of text of a conditional, its other branches included. -/
def span : Conditional → Span
  | mk _ _ _ span => span

end Conditional

namespace Stmt

/-- The stretch of text of a statement, without a semicolon after it. -/
def span : Stmt → Span
  | define definition => definition.function.span
  | declareClass _ _ span => span
  | conditional c => c.span
  | giveBack _ span => span
  | load _ span => span
  | package _ span => span
  | block body => body.span
  | expr e => e.span

end Stmt

namespace Program

/-- The package that a program declares first. -/
def package? (p : Program) : Option Ident :=
  p.stmts.findSome? fun
    | .package name _ => some name
    | _ => none

end Program

end ScriptLang
