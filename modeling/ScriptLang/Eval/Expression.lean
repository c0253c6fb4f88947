import ScriptLang.Machine.Basic
import ScriptLang.Value.Operator

/-!
# Evaluating expressions

An expression is evaluated in a scope. What a call or a load does is not decided here: the host gives
it, one frame further in. So evaluation follows the tree, and what bounds a run is the number of frames
that the host has left.

## Main definitions

* `Host`: what calls and loads do
* `evalExpr`: the value of an expression
-/

namespace ScriptLang

/-- What running code asks of its surroundings. -/
structure Host where
  /-- Call a value with arguments; the span is that of the call. -/
  call : Value → List Value → Span → Eval Value
  /-- The module with a name, loaded if it is not there yet. -/
  load : String → Eval ModuleRef

/-- A new function that sees a scope. It belongs to the unit being evaluated. -/
def newClosure (scope : ScopeId) (name? : Option String) (function : Lambda) : Eval Closure := do
  let id ← Eval.withStore Store.newObject
  return ⟨id, name?, function, scope, ← Eval.unitName⟩

/-- The value that a name stands for: from the scope outwards, then among the built-ins. -/
def readName (scope : ScopeId) (name : String) (span : Span) : Eval Value := do
  match ← Eval.readStore (·.lookup? scope name) with
  | some v => return v
  | none =>
    match Builtin.ofName? name with
    | some b => return .builtin b
    | none => Eval.failAt (.undefined name) span

/-- The value that the word for the receiver stands for. -/
def readSelf (scope : ScopeId) (span : Span) : Eval Value := do
  match ← Eval.readStore (·.lookup? scope selfName) with
  | some v => return v
  | none => Eval.failAt .selfOutsideMethod span

/-- A member of an object: a field, or a method bound to the object. -/
def readField (i : Instance) (member : Ident) : Eval Value := do
  match ← Eval.readStore (fun s => (s.bindings i.fields).get? member.name) with
  | some v => return v
  | none =>
    match i.ofClass.methods.get? member.name with
    | some method => return .method ⟨i, method⟩
    | none => Eval.failAt (.noAttribute (.instanceOf i.ofClass.name) member.name) member.span

/-- A member of a module, as it is seen from outside. -/
def readExport (m : ModuleRef) (member : Ident) : Eval Value := do
  match ← Eval.readStore (·.module? m) with
  | some module => Eval.ofExceptAt member.span (module.read? member.name)
  | none => Eval.failAt (.noMember member.name m.name) member.span

/-- A member of a value. -/
def readMember (object : Value) (member : Ident) : Eval Value :=
  match object with
  | .object i => readField i member
  | .ofClass c =>
    match c.methods.get? member.name with
    | some method => return .function method
    | none => Eval.failAt (.noAttribute (.classNamed c.name) member.name) member.span
  | .module m => readExport m member
  | v => Eval.failAt (.noAttribute (.valueOf v.typeName) member.name) member.span

/-- Set a member of a value. Only objects have members that can be set. -/
def writeMember (object : Value) (member : Ident) (v : Value) : Eval Value :=
  match object with
  | .object i => do
    Eval.modifyStore (·.define i.fields member.name v)
    return v
  | other => Eval.failAt (.memberAssignment member.name other.typeName) member.span

/-- A unary operator on a value. -/
def applyUnary (op : UnaryOp) (v : Value) (span : Span) : Eval Value :=
  match op with
  | .not => return .bool (!v.isTruthy)
  | .negate => Eval.ofExceptAt span v.negate?

/-- Whether a binary operator has its value already from its left operand. -/
def isDecided (op : BinaryOp) (left : Value) : Bool :=
  match op with
  | .and => !left.isTruthy
  | .or => left.isTruthy
  | _ => false

/-- A binary operator on two values, where the left one has not decided it. -/
def applyBinary (op : BinaryOp) (left right : Value) (span : Span) : Eval Value :=
  match op with
  | .and | .or => return right
  | _ => Eval.ofExceptAt span (Value.binary? op left right)

mutual

/-- The value of an expression in a scope. Operands are evaluated from left to right; the logical
operators leave out the right one if the left one decides. -/
def evalExpr (host : Host) (scope : ScopeId) : Expr → Eval Value
  | .int _ n => return .int n
  | .float _ x => return .float x
  | .string _ s => return .string s
  | .bool _ b => return .bool b
  | .nil _ => return .nil
  | .selfRef span => readSelf scope span
  | .name span name => readName scope name span
  | .unary span op operand => do
    let v ← evalExpr host scope operand
    applyUnary op v span
  | .binary span left op right => do
    let l ← evalExpr host scope left
    if isDecided op l then
      return l
    else
      let r ← evalExpr host scope right
      applyBinary op l r span
  | .call span callee args => do
    let f ← evalExpr host scope callee
    let vs ← evalArgs host scope args
    host.call f vs span
  | .member _ object member => do
    let v ← evalExpr host scope object
    readMember v member
  | .assignName _ target value => do
    let v ← evalExpr host scope value
    Eval.modifyStore (·.assign scope target.name v)
    return v
  | .assignMember _ object member value => do
    let o ← evalExpr host scope object
    let v ← evalExpr host scope value
    writeMember o member v
  | .lambda _ function => do
    return .function (← newClosure scope none function)

/-- The values of expressions, from left to right. -/
def evalArgs (host : Host) (scope : ScopeId) : List Expr → Eval (List Value)
  | [] => return []
  | e :: es => do
    let v ← evalExpr host scope e
    let vs ← evalArgs host scope es
    return v :: vs

end

end ScriptLang
