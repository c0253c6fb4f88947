import ScriptLang.Proofs.Syntax.Printer
import ScriptLang.Diagnostic.Fault

/-!
# What the tokens of an accepted program are

The grammar, as a relation between tokens and trees. Every token is accounted for: it is the name, the
literal or the sign of a node, or one of the brackets, commas and semicolons that leave no node.

Nesting is bounded, so the relation is indexed by the budget of what stands inside. A chain of links
begins with the whole budget of its expression, and each link takes one of it, also away from what
stands on its right.

## Main definitions

* `Phrase`: the constructs that a program is made of
* `Derives`: the tokens are those of a construct, read within a budget
* `Program.Accounted`: the tokens are those of a program
-/

namespace ScriptLang

/-- Where the last of some tokens stands, or what stood before them. -/
def lastSpan (before : Span) (tokens : List Token) : Span :=
  (tokens.getLast?.map Token.span).getD before

@[simp] theorem lastSpan_nil (before : Span) : lastSpan before [] = before := rfl

theorem lastSpan_append (before : Span) (tokens tokens' : List Token) :
    lastSpan before (tokens ++ tokens') = lastSpan (lastSpan before tokens) tokens' := by
  rw [lastSpan, lastSpan, lastSpan, List.getLast?_append]
  cases tokens'.getLast? with
  | none => rfl
  | some token => rfl

/-! ### Parts in a row -/

section Rows

variable {α : Type}

/-- Tokens of items with commas between them. A comma may follow the last item, and an item depends on
the ones before it. -/
inductive Separated (item : List α → List Token → α → Prop) :
    List α → List Token → List α → Prop where
  | nil {earlier : List α} : Separated item earlier [] []
  | last {earlier : List α} {tokens : List Token} {a : α} :
    item earlier tokens a → Separated item earlier tokens [a]
  | cons {earlier rest : List α} {tokens tokens' : List Token} {a : α} {comma : Span} :
    item earlier tokens a → Separated item (earlier ++ [a]) tokens' rest →
      Separated item earlier (tokens ++ ⟨.sign .comma, comma⟩ :: tokens') (a :: rest)

/-- Tokens of items one after the other. -/
inductive Repeated (item : List Token → α → Prop) : List Token → List α → Prop where
  | nil : Repeated item [] []
  | cons {rest : List α} {tokens tokens' : List Token} {a : α} :
    item tokens a → Repeated item tokens' rest → Repeated item (tokens ++ tokens') (a :: rest)

end Rows

/-- A semicolon, or nothing. -/
inductive OptionalSemicolon : List Token → Prop where
  | absent : OptionalSemicolon []
  | present {span : Span} : OptionalSemicolon [⟨.sign .semicolon, span⟩]

/-- A parameter is a name, or the word for the receiver. The earlier ones have other names. -/
def Ident.IsParameter (earlier : List Ident) (tokens : List Token) (param : Ident) : Prop :=
  (tokens = [⟨.name param.name, param.span⟩] ∨
    tokens = [⟨.keyword .selfWord, param.span⟩] ∧ param.name = selfName) ∧
  param.name ∉ earlier.map Ident.name

/-- A module is named by a string. -/
def ModulePath.IsPath (_ : List ModulePath) (tokens : List Token) (path : ModulePath) : Prop :=
  tokens = [⟨.string path.path, path.span⟩]

/-- The token of a name, if there is a name. -/
def nameTokens (name? : Option Ident) : List Token :=
  name?.toList.map fun name => ⟨.name name.name, name.span⟩

/-- The expression that a single token is. -/
def Token.atom? : Token → Option Expr
  | ⟨.int n, span⟩ => some (.int span n)
  | ⟨.float x, span⟩ => some (.float span x)
  | ⟨.string s, span⟩ => some (.string span s)
  | ⟨.name name, span⟩ => some (.name span name)
  | ⟨.keyword .trueWord, span⟩ => some (.bool span true)
  | ⟨.keyword .falseWord, span⟩ => some (.bool span false)
  | ⟨.keyword .nilWord, span⟩ => some (.nil span)
  | ⟨.keyword .selfWord, span⟩ => some (.selfRef span)
  | _ => none

/-! ### The grammar -/

/-- The constructs that a program is made of. -/
inductive Phrase where
  | expr (e : Expr)
  /-- An operand and the links after it, as far as they have been read; the budget that the chain
  began with. -/
  | chain (budget : Nat) (e : Expr)
  | args (es : List Expr)
  /-- A function from its word on, with the name it is declared with, if any. -/
  | function (name? : Option Ident) (f : Lambda)
  | methods (ds : List Definition)
  | block (b : Block)
  | stmts (ss : List Stmt)
  | conditional (c : Conditional)
  | otherwise (branch : ElseBranch)
  | stmt (s : Stmt)

/-- The tokens are those of a construct. The number is the budget for what stands inside; for a chain
it is what its links have left of it. -/
inductive Derives : Nat → List Token → Phrase → Prop where
  /- Operands -/
  | atom {n : Nat} {token : Token} {e : Expr} : token.atom? = some e →
    Derives n [token] (.chain n e)
  | unary {n : Nat} {ts : List Token} {op : UnaryOp} {operand : Expr} {sign : Span} :
    Derives n ts (.expr operand) →
    Derives n (⟨.sign op.sign, sign⟩ :: ts) (.chain n (.unary (sign.merge operand.span) op operand))
  | group {n : Nat} {ts : List Token} {e : Expr} {opened closed : Span} :
    Derives n ts (.expr e) →
    Derives n (⟨.sign .leftParen, opened⟩ :: (ts ++ [⟨.sign .rightParen, closed⟩]))
      (.chain n (e.withSpan (opened.merge closed)))
  | lambda {n : Nat} {ts : List Token} {f : Lambda} :
    Derives n ts (.function none f) → Derives n ts (.chain n (.lambda f.span f))
  /- Links -/
  | binary {n k : Nat} {ts ts' : List Token} {left right : Expr} {op : BinaryOp} {sign : Span} :
    Derives (n + 1) ts (.chain k left) → Derives n ts' (.expr right) →
    Derives n (ts ++ ⟨.sign op.sign, sign⟩ :: ts')
      (.chain k (.binary (left.span.merge right.span) left op right))
  | call {n k : Nat} {ts ts' : List Token} {callee : Expr} {args : List Expr}
    {opened closed : Span} :
    Derives (n + 1) ts (.chain k callee) → Derives n ts' (.args args) →
    Derives n (ts ++ ⟨.sign .leftParen, opened⟩ :: (ts' ++ [⟨.sign .rightParen, closed⟩]))
      (.chain k (.call (callee.span.merge closed) callee args))
  | member {n k : Nat} {ts : List Token} {object : Expr} {member : Ident} {dot : Span} :
    Derives (n + 1) ts (.chain k object) →
    Derives n (ts ++ [⟨.sign .dot, dot⟩, ⟨.name member.name, member.span⟩])
      (.chain k (.member (object.span.merge member.span) object member))
  /- An assignment takes all that follows for its value, so the chain ends with it. -/
  | assignName {n k : Nat} {ts ts' : List Token} {target : Ident} {value : Expr} {sign : Span} :
    Derives (n + 1) ts (.chain k (.name target.span target.name)) → Derives n ts' (.expr value) →
    Derives (k + 1) (ts ++ ⟨.sign .assign, sign⟩ :: ts')
      (.expr (.assignName (target.span.merge value.span) target value))
  | assignMember {n k : Nat} {ts ts' : List Token} {object value : Expr} {member : Ident}
    {span sign : Span} :
    Derives (n + 1) ts (.chain k (.member span object member)) → Derives n ts' (.expr value) →
    Derives (k + 1) (ts ++ ⟨.sign .assign, sign⟩ :: ts')
      (.expr (.assignMember ((object.span.merge member.span).merge value.span) object member value))
  | expr {n k : Nat} {ts : List Token} {e : Expr} :
    Derives n ts (.chain k e) → Derives (k + 1) ts (.expr e)
  /- Arguments -/
  | noArgs {n : Nat} : Derives n [] (.args [])
  | lastArg {n : Nat} {ts : List Token} {e : Expr} :
    Derives n ts (.expr e) → Derives n ts (.args [e])
  | arg {n : Nat} {ts ts' : List Token} {e : Expr} {es : List Expr} {comma : Span} :
    Derives n ts (.expr e) → Derives n ts' (.args es) →
    Derives n (ts ++ ⟨.sign .comma, comma⟩ :: ts') (.args (e :: es))
  /- Functions -/
  | function {n : Nat} {ts ts' : List Token} {name? : Option Ident} {params : List Ident}
    {body : Block} {start opened closed : Span} :
    Separated Ident.IsParameter [] ts params → Derives n ts' (.block body) →
    Derives n (⟨.keyword .fx, start⟩ :: (nameTokens name? ++ ⟨.sign .leftParen, opened⟩ ::
        (ts ++ ⟨.sign .rightParen, closed⟩ :: ts')))
      (.function name? (.mk params body (start.merge body.span)))
  | noMethods {n : Nat} : Derives n [] (.methods [])
  | method {n : Nat} {ts semi ts' : List Token} {name : Ident} {f : Lambda} {ds : List Definition} :
    Derives n ts (.function (some name) f) → OptionalSemicolon semi → Derives n ts' (.methods ds) →
    Derives n ((ts ++ semi) ++ ts') (.methods (.mk name f :: ds))
  /- Blocks -/
  | block {n : Nat} {ts : List Token} {ss : List Stmt} {opened closed : Span} :
    Derives n ts (.stmts ss) →
    Derives (n + 1) (⟨.sign .leftBrace, opened⟩ :: (ts ++ [⟨.sign .rightBrace, closed⟩]))
      (.block (.mk ss (opened.merge closed)))
  | noStmts {n : Nat} : Derives n [] (.stmts [])
  | stmts {n : Nat} {ts semi ts' : List Token} {s : Stmt} {ss : List Stmt} :
    Derives n ts (.stmt s) → OptionalSemicolon semi → Derives n ts' (.stmts ss) →
    Derives n ((ts ++ semi) ++ ts') (.stmts (s :: ss))
  /- Conditionals -/
  | conditional {n : Nat} {ts ts' ts'' : List Token} {condition : Expr} {thenBlock : Block}
    {branch : ElseBranch} {start : Span} :
    Derives n ts (.expr condition) → Derives n ts' (.block thenBlock) →
    Derives n ts'' (.otherwise branch) →
    Derives n (⟨.keyword .ifWord, start⟩ :: (ts ++ (ts' ++ ts'')))
      (.conditional (.mk condition thenBlock branch
        (start.merge (lastSpan start (ts ++ (ts' ++ ts''))))))
  | noElse {n : Nat} : Derives n [] (.otherwise .absent)
  | elseBlock {n : Nat} {ts : List Token} {b : Block} {word : Span} :
    Derives n ts (.block b) → Derives n (⟨.keyword .elseWord, word⟩ :: ts) (.otherwise (.block b))
  | elseIf {n : Nat} {ts : List Token} {c : Conditional} {word : Span} :
    Derives n ts (.conditional c) →
    Derives (n + 1) (⟨.keyword .elseWord, word⟩ :: ts) (.otherwise (.elseIf c))
  /- Statements -/
  | define {n : Nat} {ts : List Token} {name : Ident} {f : Lambda} :
    Derives n ts (.function (some name) f) → Derives n ts (.stmt (.define (.mk name f)))
  | declareClass {n : Nat} {ts : List Token} {name : Ident} {ds : List Definition}
    {start opened closed : Span} :
    Derives n ts (.methods ds) →
    Derives n (⟨.keyword .clx, start⟩ :: ⟨.name name.name, name.span⟩ ::
        ⟨.sign .leftBrace, opened⟩ :: (ts ++ [⟨.sign .rightBrace, closed⟩]))
      (.stmt (.declareClass name ds (start.merge closed)))
  | runConditional {n : Nat} {ts : List Token} {c : Conditional} :
    Derives n ts (.conditional c) → Derives n ts (.stmt (.conditional c))
  | giveNothing {n : Nat} {word : Span} :
    Derives n [⟨.keyword .returnWord, word⟩] (.stmt (.giveBack none word))
  | giveBack {n : Nat} {ts : List Token} {value : Expr} {word : Span} :
    Derives n ts (.expr value) →
    Derives n (⟨.keyword .returnWord, word⟩ :: ts)
      (.stmt (.giveBack (some value) (word.merge value.span)))
  | load {n : Nat} {ts : List Token} {paths : List ModulePath} {word opened closed : Span} :
    Separated ModulePath.IsPath [] ts paths → paths ≠ [] →
    Derives n (⟨.keyword .load, word⟩ :: ⟨.sign .leftParen, opened⟩ ::
        (ts ++ [⟨.sign .rightParen, closed⟩]))
      (.stmt (.load paths (word.merge closed)))
  | runBlock {n : Nat} {ts : List Token} {b : Block} :
    Derives n ts (.block b) → Derives n ts (.stmt (.block b))
  | evaluate {n : Nat} {ts : List Token} {e : Expr} :
    Derives n ts (.expr e) → Derives n ts (.stmt (.expr e))

/-- Lists may be made of no tokens, and so may the other branch of a conditional. -/
def Phrase.MayBeEmpty : Phrase → Prop
  | args _ | methods _ | stmts _ | otherwise _ => True
  | _ => False

/-- Everything else has a token at least. -/
theorem Derives.ne_nil {n : Nat} {ts : List Token} {phrase : Phrase} (h : Derives n ts phrase)
    (hphrase : ¬phrase.MayBeEmpty) : ts ≠ [] := by
  induction h <;> simp_all [Phrase.MayBeEmpty]

theorem Derives.of_separated {n : Nat} {earlier es : List Expr} {ts : List Token}
    (h : Separated (fun _ ts e => Derives n ts (.expr e)) earlier ts es) :
    Derives n ts (.args es) := by
  induction h with
  | nil => exact .noArgs
  | last he => exact .lastArg he
  | cons he _ ih => exact .arg he ih

/-- A construct and a semicolon, if one follows. -/
def Terminated {α : Type} (item : List Token → α → Prop) (tokens : List Token) (a : α) : Prop :=
  ∃ ts semi, tokens = ts ++ semi ∧ item ts a ∧ OptionalSemicolon semi

theorem Derives.of_repeated_stmts {n : Nat} {ss : List Stmt} {ts : List Token}
    (h : Repeated (Terminated fun ts s => Derives n ts (.stmt s)) ts ss) :
    Derives n ts (.stmts ss) := by
  induction h with
  | nil => exact .noStmts
  | cons hitem _ ih =>
    obtain ⟨ts, semi, rfl, hs, hsemi⟩ := hitem
    exact .stmts hs hsemi ih

theorem Derives.of_repeated_methods {n : Nat} {ds : List Definition} {ts : List Token}
    (h : Repeated (Terminated fun ts d => Derives n ts (.function (some d.name) d.function)) ts ds) :
    Derives n ts (.methods ds) := by
  induction h with
  | nil => exact .noMethods
  | @cons _ _ _ d hitem _ ih =>
    obtain ⟨ts, semi, rfl, hd, hsemi⟩ := hitem
    obtain ⟨name, f⟩ := d
    exact .method hd hsemi ih

/-- A statement at the top of a program: packages are declared there as well. -/
inductive TopLevel : List Token → Stmt → Prop where
  | package {name : Ident} {word : Span} :
    TopLevel [⟨.keyword .bag, word⟩, ⟨.name name.name, name.span⟩]
      (.package name (word.merge name.span))
  | stmt {ts : List Token} {s : Stmt} : Derives nestingLimit ts (.stmt s) → TopLevel ts s

/-- The tokens are those of a program. -/
def Program.Accounted (tokens : List Token) (p : Program) : Prop :=
  Repeated (Terminated TopLevel) tokens p.stmts

end ScriptLang
