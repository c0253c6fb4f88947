import ScriptLang.Syntax.Tree

/-!
# Trees up to spans

The shape of a tree is the tree without the places its nodes were read from: every span is replaced
by the same one. Two trees are the same up to spans if they have the same shape.

## Main definitions

* `Expr.shape`, `Stmt.shape`, `Program.shape`: the shapes of trees

## Main results

* `Expr.shape_withSpan`: parentheses do not change the shape of an expression
-/

namespace ScriptLang

/-- The span that stands for all. -/
def Span.erased : Span := .point Position.start

/-- A name without its place. -/
def Ident.shape (i : Ident) : Ident := ⟨i.name, .erased⟩

/-- The name of a module without its place. -/
def ModulePath.shape (p : ModulePath) : ModulePath := ⟨p.path, .erased⟩

mutual

/-- The shape of an expression. -/
def Expr.shape : Expr → Expr
  | .int _ n => .int .erased n
  | .float _ x => .float .erased x
  | .string _ s => .string .erased s
  | .bool _ b => .bool .erased b
  | .nil _ => .nil .erased
  | .selfRef _ => .selfRef .erased
  | .name _ name => .name .erased name
  | .unary _ op e => .unary .erased op e.shape
  | .binary _ l op r => .binary .erased l.shape op r.shape
  | .call _ f args => .call .erased f.shape (Expr.shapeOfArgs args)
  | .member _ e member => .member .erased e.shape member.shape
  | .assignName _ target value => .assignName .erased target.shape value.shape
  | .assignMember _ e member value => .assignMember .erased e.shape member.shape value.shape
  | .lambda _ f => .lambda .erased f.shape

/-- The shapes of arguments. -/
def Expr.shapeOfArgs : List Expr → List Expr
  | [] => []
  | e :: es => e.shape :: Expr.shapeOfArgs es

/-- The shape of a function. -/
def Lambda.shape : Lambda → Lambda
  | .mk params body _ => .mk (params.map Ident.shape) body.shape .erased

/-- The shape of a function with a name. -/
def Definition.shape : Definition → Definition
  | .mk name f => .mk name.shape f.shape

/-- The shapes of methods. -/
def Definition.shapeOfMethods : List Definition → List Definition
  | [] => []
  | d :: ds => d.shape :: Definition.shapeOfMethods ds

/-- The shape of a block. -/
def Block.shape : Block → Block
  | .mk stmts _ => .mk (Stmt.shapeOfStmts stmts) .erased

/-- The shape of a conditional. -/
def Conditional.shape : Conditional → Conditional
  | .mk condition thenBlock otherwise _ =>
    .mk condition.shape thenBlock.shape otherwise.shape .erased

/-- The shape of the other branch of a conditional. -/
def ElseBranch.shape : ElseBranch → ElseBranch
  | .absent => .absent
  | .block body => .block body.shape
  | .elseIf next => .elseIf next.shape

/-- The shape of a statement. -/
def Stmt.shape : Stmt → Stmt
  | .define d => .define d.shape
  | .declareClass name methods _ =>
    .declareClass name.shape (Definition.shapeOfMethods methods) .erased
  | .conditional c => .conditional c.shape
  | .giveBack none _ => .giveBack none .erased
  | .giveBack (some e) _ => .giveBack (some e.shape) .erased
  | .load paths _ => .load (paths.map ModulePath.shape) .erased
  | .package name _ => .package name.shape .erased
  | .block body => .block body.shape
  | .expr e => .expr e.shape

/-- The shapes of statements. -/
def Stmt.shapeOfStmts : List Stmt → List Stmt
  | [] => []
  | s :: rest => s.shape :: Stmt.shapeOfStmts rest

end

/-- The shape of a program. -/
def Program.shape (p : Program) : Program := ⟨Stmt.shapeOfStmts p.stmts, .erased⟩

@[simp] theorem Expr.shape_withSpan (s : Span) (e : Expr) : (e.withSpan s).shape = e.shape := by
  cases e <;> simp only [withSpan, shape]

/-- Only names have the shape of a name. -/
theorem Expr.eq_name_of_shape_eq {e : Expr} {s : Span} {n : String}
    (h : e.shape = (name s n).shape) : ∃ s', e = name s' n := by
  cases e with
  | name s' n' =>
    cases h
    exact ⟨s', rfl⟩
  | _ => cases h

/-- Only members have the shape of a member. -/
theorem Expr.eq_member_of_shape_eq {e object : Expr} {s : Span} {m : Ident}
    (h : e.shape = (member s object m).shape) :
    ∃ s' object' m', e = member s' object' m' ∧ object'.shape = object.shape ∧
      m'.shape = m.shape := by
  cases e with
  | member s' object' m' =>
    injection h with _ hobject hm
    exact ⟨s', object', m', rfl, hobject, hm⟩
  | _ => cases h

theorem Expr.shapeOfArgs_eq_map (es : List Expr) : shapeOfArgs es = es.map shape := by
  induction es with
  | nil => rfl
  | cons e es ih => rw [shapeOfArgs, ih, List.map_cons]

theorem Definition.shapeOfMethods_eq_map (ds : List Definition) :
    shapeOfMethods ds = ds.map shape := by
  induction ds with
  | nil => rfl
  | cons d ds ih => rw [shapeOfMethods, ih, List.map_cons]

theorem Stmt.shapeOfStmts_eq_map (stmts : List Stmt) : shapeOfStmts stmts = stmts.map shape := by
  induction stmts with
  | nil => rfl
  | cons s rest ih => rw [shapeOfStmts, ih, List.map_cons]

end ScriptLang
