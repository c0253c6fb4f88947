import ScriptLang.Syntax.Tree
import ScriptLang.Token.Basic

/-!
# Programs as lists of lexemes

How a tree is written. Every statement is followed by a semicolon. An expression inside another one
stands between parentheses only where it binds less tightly than its place asks for.

## Main definitions

* `Expr.power`: how tightly an expression holds together
* `Expr.lexemes`, `Stmt.lexemes`, `Program.lexemes`: how trees are written
* `Program.WellFormed`: the trees that can be written
-/

namespace ScriptLang

/-- The sign of a unary operator. -/
def UnaryOp.sign : UnaryOp → Sign
  | negate => .minus
  | not => .bang

/-- The sign of a binary operator. -/
def BinaryOp.sign : BinaryOp → Sign
  | add => .plus
  | sub => .minus
  | mul => .star
  | div => .slash
  | mod => .percent
  | eq => .equal
  | ne => .notEqual
  | lt => .less
  | gt => .greater
  | le => .lessEqual
  | ge => .greaterEqual
  | and => .andAnd
  | or => .orOr

/-- Items with commas between them. -/
def commaSeparated : List (List Lexeme) → List Lexeme
  | [] => []
  | [item] => item
  | item :: next :: items => item ++ .sign .comma :: commaSeparated (next :: items)

/-- How a parameter is written. The receiver has a word of its own. -/
def Ident.asParameter (param : Ident) : Lexeme :=
  if param.name = selfName then .keyword .selfWord else .name param.name

namespace Expr

/-- How tightly an expression holds together: as its outermost link or operator binds, and tighter
than any link if it has none. -/
def power : Expr → BindingPower
  | assignName _ _ _ | assignMember _ _ _ _ => BindingPower.assignment
  | binary _ _ op _ => op.power
  | unary _ _ _ => BindingPower.unary
  | call _ _ _ => BindingPower.call
  | member _ _ _ => BindingPower.member
  | _ => BindingPower.member + 1

/-- The lexemes of an expression in a place that asks for a power. -/
def place (least power : BindingPower) (lexemes : List Lexeme) : List Lexeme :=
  if power < least then .sign .leftParen :: lexemes ++ [.sign .rightParen] else lexemes

end Expr

mutual

/-- The lexemes of an expression. The operand of a unary operator has to bind as tightly as the
operator, that on the left of a binary operator as well, that on its right tighter; what is called
and what has a member has to bind as tightly as a call. -/
def Expr.lexemes : Expr → List Lexeme
  | .int _ n => [.int n]
  | .float _ x => [.float x]
  | .string _ s => [.string s]
  | .bool _ true => [.keyword .trueWord]
  | .bool _ false => [.keyword .falseWord]
  | .nil _ => [.keyword .nilWord]
  | .selfRef _ => [.keyword .selfWord]
  | .name _ name => [.name name]
  | .unary _ op e => .sign op.sign :: Expr.place BindingPower.unary e.power e.lexemes
  | .binary _ l op r =>
    Expr.place op.power l.power l.lexemes ++
      .sign op.sign :: Expr.place (op.power + 1) r.power r.lexemes
  | .call _ f args =>
    Expr.place BindingPower.call f.power f.lexemes ++
      .sign .leftParen :: (commaSeparated (Expr.lexemesOfArgs args) ++ [.sign .rightParen])
  | .member _ e member =>
    Expr.place BindingPower.call e.power e.lexemes ++ [.sign .dot, .name member.name]
  -- Assignments group to the right, so a value needs no parentheses.
  | .assignName _ target value => .name target.name :: .sign .assign :: value.lexemes
  | .assignMember _ e member value =>
    Expr.place BindingPower.call e.power e.lexemes ++
      .sign .dot :: .name member.name :: .sign .assign :: value.lexemes
  | .lambda _ f => .keyword .fx :: f.lexemes

/-- The lexemes of each argument. -/
def Expr.lexemesOfArgs : List Expr → List (List Lexeme)
  | [] => []
  | e :: es => e.lexemes :: Expr.lexemesOfArgs es

/-- The lexemes of a function after the word `fx` and its name, if it has one. -/
def Lambda.lexemes : Lambda → List Lexeme
  | .mk params body _ =>
    .sign .leftParen :: (commaSeparated (params.map fun param => [param.asParameter]) ++
      .sign .rightParen :: body.lexemes)

/-- The lexemes of a function with a name. -/
def Definition.lexemes : Definition → List Lexeme
  | .mk name f => .keyword .fx :: .name name.name :: f.lexemes

/-- The lexemes of methods. -/
def Definition.lexemesOfMethods : List Definition → List Lexeme
  | [] => []
  | d :: ds => d.lexemes ++ Definition.lexemesOfMethods ds

/-- The lexemes of a block. -/
def Block.lexemes : Block → List Lexeme
  | .mk stmts _ => .sign .leftBrace :: (Stmt.lexemesOfStmts stmts ++ [.sign .rightBrace])

/-- The lexemes of a conditional. -/
def Conditional.lexemes : Conditional → List Lexeme
  | .mk condition thenBlock otherwise _ =>
    .keyword .ifWord :: (condition.lexemes ++ (thenBlock.lexemes ++ otherwise.lexemes))

/-- The lexemes of the other branch of a conditional. -/
def ElseBranch.lexemes : ElseBranch → List Lexeme
  | .absent => []
  | .block body => .keyword .elseWord :: body.lexemes
  | .elseIf next => .keyword .elseWord :: next.lexemes

/-- The lexemes of a statement, without the semicolon after it. -/
def Stmt.lexemes : Stmt → List Lexeme
  | .define d => d.lexemes
  | .declareClass name methods _ =>
    .keyword .clx :: .name name.name :: .sign .leftBrace ::
      (Definition.lexemesOfMethods methods ++ [.sign .rightBrace])
  | .conditional c => c.lexemes
  | .giveBack none _ => [.keyword .returnWord]
  | .giveBack (some e) _ => .keyword .returnWord :: e.lexemes
  | .load paths _ =>
    .keyword .load :: .sign .leftParen ::
      (commaSeparated (paths.map fun p => [.string p.path]) ++ [.sign .rightParen])
  | .package name _ => [.keyword .bag, .name name.name]
  | .block body => body.lexemes
  | .expr e => e.lexemes

/-- The lexemes of statements, each with its semicolon. -/
def Stmt.lexemesOfStmts : List Stmt → List Lexeme
  | [] => []
  | s :: rest => s.lexemes ++ .sign .semicolon :: Stmt.lexemesOfStmts rest

end

/-- The lexemes of a program. -/
def Program.lexemes (p : Program) : List Lexeme := Stmt.lexemesOfStmts p.stmts

mutual

/-- Every function inside has parameters with different names, every load has something to load, and
no package is declared. -/
def Expr.WellFormed : Expr → Prop
  | .int _ _ | .float _ _ | .string _ _ | .bool _ _ | .nil _ | .selfRef _ | .name _ _ => True
  | .unary _ _ e => e.WellFormed
  | .binary _ l _ r => l.WellFormed ∧ r.WellFormed
  | .call _ f args => f.WellFormed ∧ Expr.WellFormedArgs args
  | .member _ e _ => e.WellFormed
  | .assignName _ _ value => value.WellFormed
  | .assignMember _ e _ value => e.WellFormed ∧ value.WellFormed
  | .lambda _ f => f.WellFormed

/-- Arguments that can be written. -/
def Expr.WellFormedArgs : List Expr → Prop
  | [] => True
  | e :: es => e.WellFormed ∧ Expr.WellFormedArgs es

/-- A function that can be written. -/
def Lambda.WellFormed : Lambda → Prop
  | .mk params body _ => (params.map Ident.name).Nodup ∧ body.WellFormed

/-- A function with a name that can be written. -/
def Definition.WellFormed : Definition → Prop
  | .mk _ f => f.WellFormed

/-- Methods that can be written. -/
def Definition.WellFormedMethods : List Definition → Prop
  | [] => True
  | d :: ds => d.WellFormed ∧ Definition.WellFormedMethods ds

/-- A block that can be written. -/
def Block.WellFormed : Block → Prop
  | .mk stmts _ => Stmt.WellFormedStmts stmts

/-- A conditional that can be written. -/
def Conditional.WellFormed : Conditional → Prop
  | .mk condition thenBlock otherwise _ =>
    condition.WellFormed ∧ thenBlock.WellFormed ∧ otherwise.WellFormed

/-- The other branch of a conditional that can be written. -/
def ElseBranch.WellFormed : ElseBranch → Prop
  | .absent => True
  | .block body => body.WellFormed
  | .elseIf next => next.WellFormed

/-- A statement that can be written in a block. -/
def Stmt.WellFormed : Stmt → Prop
  | .define d => d.WellFormed
  | .declareClass _ methods _ => Definition.WellFormedMethods methods
  | .conditional c => c.WellFormed
  | .giveBack none _ => True
  | .giveBack (some e) _ => e.WellFormed
  | .load paths _ => paths ≠ []
  -- Packages are declared at the top only.
  | .package _ _ => False
  | .block body => body.WellFormed
  | .expr e => e.WellFormed

/-- Statements that can be written in a block. -/
def Stmt.WellFormedStmts : List Stmt → Prop
  | [] => True
  | s :: rest => s.WellFormed ∧ Stmt.WellFormedStmts rest

end

/-- A program that can be written: at the top packages can be declared as well. -/
def Program.WellFormed (p : Program) : Prop :=
  ∀ s ∈ p.stmts, s.WellFormed ∨ ∃ name span, s = .package name span

/-! ### Parts in a row -/

theorem Expr.lexemesOfArgs_eq_map (es : List Expr) : lexemesOfArgs es = es.map lexemes := by
  induction es with
  | nil => rfl
  | cons e es ih => rw [lexemesOfArgs, ih, List.map_cons]

theorem Definition.lexemesOfMethods_eq_flatMap (ds : List Definition) :
    lexemesOfMethods ds = ds.flatMap lexemes := by
  induction ds with
  | nil => rfl
  | cons d ds ih => rw [lexemesOfMethods, ih, List.flatMap_cons]

theorem Stmt.lexemesOfStmts_eq_flatMap (stmts : List Stmt) :
    lexemesOfStmts stmts = stmts.flatMap fun s => s.lexemes ++ [.sign .semicolon] := by
  induction stmts with
  | nil => rfl
  | cons s rest ih =>
    rw [lexemesOfStmts, ih, List.flatMap_cons, List.append_assoc, List.singleton_append]

/-! ### How expressions begin -/

/-- The lexemes begin like those of an expression. A function without a name begins like one with a
name, but for the parenthesis. -/
def OpensExpression : List Lexeme → Prop
  | .int _ :: _ | .float _ :: _ | .string _ :: _ | .name _ :: _ => True
  | .keyword .trueWord :: _ | .keyword .falseWord :: _ | .keyword .nilWord :: _
  | .keyword .selfWord :: _ => True
  | .keyword .fx :: rest => rest.head? = some (.sign .leftParen)
  | .sign .minus :: _ | .sign .bang :: _ | .sign .leftParen :: _ => True
  | _ => False

theorem OpensExpression.append {ls : List Lexeme} (h : OpensExpression ls) (ls' : List Lexeme) :
    OpensExpression (ls ++ ls') := by
  cases ls with
  | nil => cases h
  | cons l rest =>
    cases l with
    | keyword k =>
      cases k with
      | fx =>
        have hparen : rest.head? = some (.sign .leftParen) := h
        change (rest ++ ls').head? = some (.sign .leftParen)
        rw [List.head?_append, hparen, Option.some_or]
      | _ => exact h
    | sign s => cases s <;> exact h
    | _ => trivial

/-- Nothing ends where an expression begins. -/
theorem OpensExpression.exists_cons {ls : List Lexeme} (h : OpensExpression ls) :
    ∃ l rest, ls = l :: rest ∧ l ≠ .sign .rightParen ∧ l ≠ .sign .rightBrace ∧
      l ≠ .sign .semicolon ∧ l ≠ .keyword .bag := by
  cases ls with
  | nil => cases h
  | cons l rest =>
    refine ⟨l, rest, rfl, ?_, ?_, ?_, ?_⟩ <;> rintro rfl <;> cases h

theorem OpensExpression.place {ls : List Lexeme} (h : OpensExpression ls)
    (least power : BindingPower) : OpensExpression (Expr.place least power ls) := by
  rw [Expr.place]
  split
  · trivial
  · exact h

/-- The lexemes of an expression begin like those of one: the left side comes first. -/
theorem Expr.opens : ∀ e : Expr, OpensExpression e.lexemes
  | .int _ _ | .float _ _ | .string _ _ | .nil _ | .selfRef _ | .name _ _ => trivial
  | .bool _ true | .bool _ false => trivial
  | .unary _ .negate _ | .unary _ .not _ => trivial
  | .binary _ l _ _ => (l.opens.place _ _).append _
  | .call _ f _ => (f.opens.place _ _).append _
  | .member _ e _ => (e.opens.place _ _).append _
  | .assignName _ _ _ => trivial
  | .assignMember _ e _ _ => (e.opens.place _ _).append _
  | .lambda _ (.mk _ _ _) => rfl

/-- No block ends where a statement begins, and no package is declared by those that can be written
in a block. -/
theorem Stmt.exists_cons (s : Stmt) :
    ∃ l rest, s.lexemes = l :: rest ∧ l ≠ .sign .rightBrace ∧
      (s.WellFormed → l ≠ .keyword .bag) := by
  cases s with
  | define d =>
    obtain ⟨name, f⟩ := d
    exact ⟨_, _, rfl, by simp, by simp⟩
  | conditional c =>
    obtain ⟨condition, thenBlock, otherwise, span⟩ := c
    exact ⟨_, _, rfl, by simp, by simp⟩
  | giveBack value span => cases value <;> exact ⟨_, _, rfl, by simp, by simp⟩
  | package name span => exact ⟨_, _, rfl, by simp, fun h => by cases h⟩
  | block body =>
    obtain ⟨stmts, span⟩ := body
    exact ⟨_, _, rfl, by simp, by simp⟩
  | expr e =>
    obtain ⟨l, rest, hl, -, hbrace, -, hbag⟩ := e.opens.exists_cons
    exact ⟨l, rest, hl, hbrace, fun _ => hbag⟩
  | _ => exact ⟨_, _, rfl, by simp, by simp⟩

end ScriptLang
