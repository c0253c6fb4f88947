import ScriptLang.Syntax.Cursor
import ScriptLang.Token.Lexer

/-!
# From tokens to programs

Expressions are read by binding power: an operand, then as many links (operators, calls, member
accesses, assignments) as bind at least as tightly as asked for.

Nesting is bounded. A nested expression, a block and an `if` after `else` each take one from a budget
for the time they are read. A link makes the tree one level deeper as well, so each link of a chain
takes one until the expression of the chain ends. All parsers of nested constructs are functions of
the budget that is left.

## Main definitions

* `Link`: what can follow an operand
* `Nested`: the parsers of nested constructs, for one budget
* `Grammar.expression`, `Grammar.block`, `Grammar.elseIf`: these parsers for every budget
* `Program.ofTokens`, `Program.parse`: the program of a list of tokens, and of a unit
-/

namespace ScriptLang

/-- What follows an operand and makes a greater expression of it. -/
inductive Link where
  | assign
  | binary (op : BinaryOp)
  | call
  | member
  deriving DecidableEq, Repr

namespace Link

/-- How tightly a link binds. -/
def power : Link → BindingPower
  | assign => BindingPower.assignment
  | binary op => op.power
  | call => BindingPower.call
  | member => BindingPower.member

/-- The link that a sign begins. -/
def ofSign? : Sign → Option Link
  | .assign => some assign
  | .orOr => some (binary .or)
  | .andAnd => some (binary .and)
  | .equal => some (binary .eq)
  | .notEqual => some (binary .ne)
  | .less => some (binary .lt)
  | .greater => some (binary .gt)
  | .lessEqual => some (binary .le)
  | .greaterEqual => some (binary .ge)
  | .plus => some (binary .add)
  | .minus => some (binary .sub)
  | .star => some (binary .mul)
  | .slash => some (binary .div)
  | .percent => some (binary .mod)
  | .leftParen => some call
  | .dot => some member
  | _ => none

/-- The link that a token begins. -/
def ofLexeme? : Option Lexeme → Option Link
  | some (.sign s) => ofSign? s
  | _ => none

end Link

/-- The parsers of the constructs that can stand inside another. -/
structure Nested where
  /-- An expression whose links bind at least as tightly as the power. -/
  expression : BindingPower → Parser Expr
  /-- Statements between braces. -/
  block : Parser Block
  /-- A conditional after the word `else`. -/
  elseIf : Parser Conditional

namespace Nested

open ScriptLang.Parser

/-- Any expression. -/
def anyExpression (inner : Nested) : Parser Expr := inner.expression BindingPower.assignment

/-- A parameter, other than the earlier ones. -/
def parameter (earlier : List Ident) : Parser Ident := do
  let param ← parameterName
  if earlier.any (·.name = param.name) then
    failAt (.duplicateParameter param.name) param.span
  else
    return param

/-- Parameters between parentheses and a body, after the word `fx` at `start` and a name, if any. -/
def lambda (inner : Nested) (start : Span) : Parser Lambda := do
  let _ ← expect .leftParen
  let params ← commaList parameter
  let _ ← expect .rightParen
  let body ← inner.block
  return .mk params body (start.merge body.span)

/-- A function with a name, from the word `fx` on. -/
def definition (inner : Nested) : Parser Definition := do
  let start ← take
  let name ← identifier
  return .mk name (← inner.lambda start)

/-- A literal, whose token is next. -/
def literal (make : Span → Expr) : Parser Expr := do
  return make (← take)

/-- A unary operator, whose sign is next, and its operand. -/
def unary (inner : Nested) (op : UnaryOp) : Parser Expr := do
  let start ← take
  let operand ← inner.expression BindingPower.unary
  return .unary (start.merge operand.span) op operand

/-- An expression in parentheses, the first of which is next. -/
def group (inner : Nested) : Parser Expr := do
  let start ← take
  let e ← inner.anyExpression
  let close ← expect .rightParen
  return e.withSpan (start.merge close)

/-- What an expression begins with, up to its first link. -/
def operand (inner : Nested) : Parser Expr := do
  match ← peek with
  | some (.int n) => literal (.int · n)
  | some (.float x) => literal (.float · x)
  | some (.string s) => literal (.string · s)
  | some (.keyword .trueWord) => literal (.bool · true)
  | some (.keyword .falseWord) => literal (.bool · false)
  | some (.keyword .nilWord) => literal .nil
  | some (.keyword .selfWord) => literal .selfRef
  | some (.name n) => literal (.name · n)
  | some (.sign .minus) => inner.unary .negate
  | some (.sign .bang) => inner.unary .not
  | some (.sign .leftParen) => inner.group
  | some (.keyword .fx) => do
    let start ← take
    let f ← inner.lambda start
    return .lambda f.span f
  | _ => unexpected "expression"

/-- The rest of an assignment to `target`. Only names and members can be assigned to. -/
def assignment (inner : Nested) (target : Expr) : Parser Expr := do
  let sign ← take
  match target with
  | .name span name => do
    let value ← inner.anyExpression
    return .assignName (span.merge value.span) ⟨name, span⟩ value
  | .member _ object member => do
    let value ← inner.anyExpression
    return .assignMember ((object.span.merge member.span).merge value.span) object member value
  | _ => failAt .invalidTarget (target.span.merge sign)

/-- The expression that a link, whose sign is next, makes of the one on its left. -/
def follow (inner : Nested) (left : Expr) : Link → Parser Expr
  | .assign => inner.assignment left
  | .binary op => do
    let _ ← take
    -- Operators of equal power group to the left, so the right side must bind tighter.
    let right ← inner.expression (op.power + 1)
    return .binary (left.span.merge right.span) left op right
  | .call => do
    let _ ← take
    let args ← commaList fun _ => inner.anyExpression
    let close ← expect .rightParen
    return .call (left.span.merge close) left args
  | .member => do
    let _ ← take
    let member ← identifier
    return .member (left.span.merge member.span) left member

/-- What follows the first block of a conditional: the word `else` and a block or another conditional,
or nothing. -/
def otherwise (inner : Nested) : Parser ElseBranch := do
  if ← eatWord .elseWord then
    match ← peek with
    | some (.keyword .ifWord) => ElseBranch.elseIf <$> inner.elseIf
    | _ => ElseBranch.block <$> inner.block
  else
    return .absent

/-- A conditional, from the word `if` on. -/
def conditional (inner : Nested) : Parser Conditional := do
  let start ← take
  let condition ← inner.anyExpression
  let thenBlock ← inner.block
  let elseBranch ← inner.otherwise
  return .mk condition thenBlock elseBranch (start.merge (← behind))

/-- A method of a class, and a semicolon, if one follows. -/
def method (inner : Nested) : Parser Definition := do
  match ← peek with
  | some (.keyword .fx) => do
    let d ← inner.definition
    let _ ← eat .semicolon
    return d
  | _ => unexpected "method declaration"

/-- A class and its methods, from the word `clx` on. -/
def classDeclaration (inner : Nested) : Parser Stmt := do
  let start ← take
  let name ← identifier
  let _ ← expect .leftBrace
  let methods ← many (fun c => !c.sees .rightBrace) inner.method
  let close ← expect .rightBrace
  return .declareClass name methods (start.merge close)

/-- The word `return` and the value to give back, unless the statement ends there. -/
def giveBack (inner : Nested) : Parser Stmt := do
  let start ← take
  match ← peek with
  | none | some (.sign .rightBrace) | some (.sign .semicolon) => return .giveBack none start
  | _ => do
    let value ← inner.anyExpression
    return .giveBack (some value) (start.merge value.span)

/-- The modules to load, from the word `load` on. -/
def load : Parser Stmt := do
  let start ← take
  let _ ← expect .leftParen
  let paths ← commaList fun _ => modulePath
  let close ← expect .rightParen
  let span := start.merge close
  if paths.isEmpty then
    failAt .emptyLoad span
  else
    return .load paths span

/-- A statement, as it can stand in a block. The word `fx` begins one only before a name. -/
def statement (inner : Nested) : Parser Stmt := fun c =>
  match c.ahead with
  | ⟨.keyword .fx, _⟩ :: ⟨.name _, _⟩ :: _ => (Stmt.define <$> inner.definition) c
  | ⟨.keyword .clx, _⟩ :: _ => inner.classDeclaration c
  | ⟨.keyword .ifWord, _⟩ :: _ => (Stmt.conditional <$> inner.conditional) c
  | ⟨.keyword .returnWord, _⟩ :: _ => inner.giveBack c
  | ⟨.keyword .load, _⟩ :: _ => load c
  | ⟨.sign .leftBrace, _⟩ :: _ => (Stmt.block <$> inner.block) c
  | ⟨.keyword .bag, span⟩ :: _ => failAt .nestedPackage span c
  | _ => (Stmt.expr <$> inner.anyExpression) c

/-- A statement and a semicolon, if one follows. -/
def terminated (stmt : Parser Stmt) : Parser Stmt := do
  let s ← stmt
  let _ ← eat .semicolon
  return s

/-- Statements between braces, the first of which must be next. -/
def braced (inner : Nested) : Parser Block := do
  let start ← expect .leftBrace
  let stmts ← many (fun c => !c.sees .rightBrace && !c.atEnd) (terminated inner.statement)
  let close ← expect .rightBrace
  return .mk stmts (start.merge close)

/-- A statement at the top of a program, where packages are declared as well. -/
def topLevel (inner : Nested) : Parser Stmt := do
  match ← peek with
  | some (.keyword .bag) => do
    let start ← take
    let name ← identifier
    return .package name (start.merge name.span)
  | _ => inner.statement

end Nested

namespace Grammar

open ScriptLang.Parser

/-- End because the budget is used up. -/
def tooDeep {α : Type} : Parser α := fun c => .error (Fault.nestingTooDeep.at c.span)

mutual

/-- An expression whose links bind at least as tightly as `least`. -/
def expression : Nat → BindingPower → Parser Expr
  | 0, _ => tooDeep
  | budget + 1, least => do
    let left ← Nested.operand ⟨expression budget, block budget, elseIf budget⟩
    chain budget least left

/-- The links after an operand, as far as they bind at least as tightly as `least`. -/
def chain : Nat → BindingPower → Expr → Parser Expr
  | 0, least, left => do
    -- An expression may still end here: only one more link is too much.
    match Link.ofLexeme? (← peek) with
    | some link => if link.power < least then return left else tooDeep
    | none => return left
  | budget + 1, least, left => do
    match Link.ofLexeme? (← peek) with
    | some link =>
      if link.power < least then
        return left
      else
        let whole ← Nested.follow ⟨expression budget, block budget, elseIf budget⟩ left link
        chain budget least whole
    | none => return left

/-- Statements between braces. -/
def block : Nat → Parser Block
  | 0 => tooDeep
  | budget + 1 => Nested.braced ⟨expression budget, block budget, elseIf budget⟩

/-- A conditional after the word `else`. -/
def elseIf : Nat → Parser Conditional
  | 0 => tooDeep
  | budget + 1 => Nested.conditional ⟨expression budget, block budget, elseIf budget⟩

end

/-- The parsers of nested constructs that leave a budget to what they hold. -/
def nested (budget : Nat) : Nested := ⟨expression budget, block budget, elseIf budget⟩

/-- The statements of a unit, up to its end. -/
def program : Parser Program := do
  let start ← here
  let stmts ← many (fun c => !c.atEnd) (Nested.terminated (nested nestingLimit).topLevel)
  if stmts.isEmpty then
    return ⟨stmts, start⟩
  else
    return ⟨stmts, start.merge (← behind)⟩

end Grammar

namespace Program

/-- The program of a list of tokens. -/
def ofTokens (stream : TokenStream) : Except Diagnostic Program :=
  (Grammar.program.run { ahead := stream.tokens, finish := stream.finish }).map Prod.fst

/-- The program of a unit; a diagnostic names the unit. -/
def parse (source : SourceUnit) : Except Diagnostic Program :=
  (tokenize source.text >>= ofTokens).mapError (·.withUnit source.name)

/-- A program is made of the tokens of its unit. -/
theorem exists_ofTokens_of_parse {source : SourceUnit} {p : Program} (h : parse source = .ok p) :
    ∃ stream, tokenize source.text = .ok stream ∧ ofTokens stream = .ok p := by
  unfold parse at h
  cases htokens : tokenize source.text with
  | error d =>
    rw [htokens] at h
    cases h
  | ok stream =>
    rw [htokens] at h
    refine ⟨stream, rfl, ?_⟩
    change Except.mapError _ (ofTokens stream) = _ at h
    cases hprogram : ofTokens stream with
    | error d =>
      rw [hprogram] at h
      cases h
    | ok p' =>
      rw [hprogram] at h
      cases h
      rfl

/-- What is wrong with a unit is found by one of the two readers, and the name is put to it. -/
theorem exists_fault_of_parse {source : SourceUnit} {d : Diagnostic} (h : parse source = .error d) :
    ∃ found, d = found.withUnit source.name ∧ (tokenize source.text = .error found ∨
      ∃ stream, tokenize source.text = .ok stream ∧ ofTokens stream = .error found) := by
  unfold parse at h
  cases htokens : tokenize source.text with
  | error found =>
    rw [htokens] at h
    cases h
    exact ⟨found, rfl, .inl rfl⟩
  | ok stream =>
    rw [htokens] at h
    change Except.mapError _ (ofTokens stream) = _ at h
    cases hprogram : ofTokens stream with
    | error found =>
      rw [hprogram] at h
      cases h
      exact ⟨found, rfl, .inr ⟨stream, rfl, hprogram⟩⟩
    | ok p =>
      rw [hprogram] at h
      cases h

end Program

end ScriptLang
