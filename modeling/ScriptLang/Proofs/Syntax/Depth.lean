import ScriptLang.Proofs.Syntax.Acceptance
import ScriptLang.Proofs.Syntax.RoundTrip

/-!
# How deep an accepted program can be

A level of a tree is an expression, a block, or a conditional after `else`; parentheses leave no
level. The budget of the parser counts what is open while it reads. What it has read in parentheses
costs nothing any more, although the links that follow put their levels on top of it. So an accepted
tree can have more levels than the budget has units, and what bounds it is the sum of the budgets
that an expression in an expression can have.

## Main definitions

* `Expr.levels`, `Program.levels`: the greatest number of levels from the root to a leaf
* `levelBound`: the sum of the budgets up to one

## Main results

* `Derives.levels_le`: a construct has at most as many levels as its budget allows
* `Program.levels_le_of_ofTokens`: so has an accepted program
* `Program.not_levels_le_nestingLimit`: some accepted program has more levels than the limit
-/

namespace ScriptLang

mutual

/-- The levels of an expression. -/
def Expr.levels : Expr → Nat
  | .int _ _ | .float _ _ | .string _ _ | .bool _ _ | .nil _ | .selfRef _ | .name _ _ => 1
  | .unary _ _ operand => operand.levels + 1
  | .binary _ left _ right => max left.levels right.levels + 1
  | .call _ callee args => max callee.levels (Expr.levelsOfArgs args) + 1
  | .member _ object _ => object.levels + 1
  | .assignName _ _ value => value.levels + 1
  | .assignMember _ object _ value => max object.levels value.levels + 1
  | .lambda _ f => f.levels + 1

/-- The levels of arguments. -/
def Expr.levelsOfArgs : List Expr → Nat
  | [] => 0
  | e :: es => max e.levels (Expr.levelsOfArgs es)

/-- The levels of a function. -/
def Lambda.levels : Lambda → Nat
  | .mk _ body _ => body.levels

/-- The levels of a function with a name. -/
def Definition.levels : Definition → Nat
  | .mk _ f => f.levels

/-- The levels of methods. -/
def Definition.levelsOfMethods : List Definition → Nat
  | [] => 0
  | d :: ds => max d.levels (Definition.levelsOfMethods ds)

/-- The levels of a block. -/
def Block.levels : Block → Nat
  | .mk stmts _ => Stmt.levelsOfStmts stmts + 1

/-- The levels of a conditional. -/
def Conditional.levels : Conditional → Nat
  | .mk condition thenBlock otherwise _ =>
    max condition.levels (max thenBlock.levels otherwise.levels)

/-- The levels of the other branch of a conditional. A conditional there is a level of its own. -/
def ElseBranch.levels : ElseBranch → Nat
  | .absent => 0
  | .block body => body.levels
  | .elseIf next => next.levels + 1

/-- The levels of a statement. -/
def Stmt.levels : Stmt → Nat
  | .define d => d.levels
  | .declareClass _ methods _ => Definition.levelsOfMethods methods
  | .conditional c => c.levels
  | .giveBack none _ => 0
  | .giveBack (some e) _ => e.levels
  | .load _ _ => 0
  | .package _ _ => 0
  | .block body => body.levels
  | .expr e => e.levels

/-- The levels of statements. -/
def Stmt.levelsOfStmts : List Stmt → Nat
  | [] => 0
  | s :: rest => max s.levels (Stmt.levelsOfStmts rest)

end

/-- The greatest number of levels from the root of a program to a leaf. -/
def Program.levels (p : Program) : Nat := Stmt.levelsOfStmts p.stmts

@[simp] theorem Expr.levels_withSpan (s : Span) (e : Expr) : (e.withSpan s).levels = e.levels := by
  cases e <;> rfl

theorem Token.atom?_levels {token : Token} {e : Expr} (h : token.atom? = some e) :
    e.levels = 1 := by
  unfold Token.atom? at h
  split at h <;> cases h <;> rfl

/-! ### The bound -/

/-- The sum of the numbers up to a budget. -/
def levelBound : Nat → Nat
  | 0 => 0
  | n + 1 => levelBound n + (n + 1)

theorem levelBound_mono {m n : Nat} (h : m ≤ n) : levelBound m ≤ levelBound n := by
  induction h with
  | refl => exact Nat.le_refl _
  | step _ ih => exact Nat.le_trans ih (Nat.le_add_right _ _)

theorem two_mul_levelBound (n : Nat) : 2 * levelBound n = n * (n + 1) := by
  induction n with
  | zero => rfl
  | succ n ih =>
    rw [levelBound, Nat.mul_add, ih, ← Nat.add_mul, Nat.mul_comm]

/-- A construct has no more levels than its budget allows. A chain may still grow by as many levels
as it has links left, so these count as well. -/
def Phrase.Bounded (n : Nat) : Phrase → Prop
  | expr e => e.levels ≤ levelBound n
  | chain budget e => n ≤ budget ∧ e.levels + n ≤ levelBound (budget + 1)
  | args es => Expr.levelsOfArgs es ≤ levelBound n
  | function _ f => f.levels ≤ levelBound n
  | methods ds => Definition.levelsOfMethods ds ≤ levelBound n
  | block b => b.levels ≤ levelBound n
  | stmts ss => Stmt.levelsOfStmts ss ≤ levelBound n
  | conditional c => c.levels ≤ levelBound n
  | otherwise branch => branch.levels ≤ levelBound n
  | stmt s => s.levels ≤ levelBound n

/-- An operand begins a chain that has all its links left. -/
theorem Phrase.bounded_operand {n : Nat} {e : Expr} (h : e.levels ≤ levelBound n + 1) :
    (Phrase.chain n e).Bounded n := by
  refine ⟨Nat.le_refl n, ?_⟩
  rw [levelBound]
  omega

/-- A link takes one from the budget and puts one level on top, and what stands on its right has the
smaller budget. -/
theorem Phrase.bounded_link {n k : Nat} {left e : Expr} {right : Nat}
    (hleft : (Phrase.chain k left).Bounded (n + 1)) (hright : right ≤ levelBound n)
    (he : e.levels ≤ max left.levels right + 1) : (Phrase.chain k e).Bounded n := by
  obtain ⟨hbudget, hlevels⟩ := hleft
  have hle : n ≤ k := Nat.le_of_succ_le hbudget
  have hmono : levelBound n ≤ levelBound k := levelBound_mono hle
  refine ⟨hle, ?_⟩
  rw [levelBound] at hlevels ⊢
  omega

/-- A chain that ends has no more levels than the expression it was begun for may have. -/
theorem Phrase.bounded_expr {n k : Nat} {e : Expr} (h : (Phrase.chain k e).Bounded n) :
    (Phrase.expr e).Bounded (k + 1) :=
  Nat.le_trans (Nat.le_add_right _ _) h.2

/-- A construct has at most as many levels as its budget allows. The induction is on the
derivation. -/
theorem Derives.levels_le {n : Nat} {tokens : List Token} {phrase : Phrase}
    (h : Derives n tokens phrase) : phrase.Bounded n := by
  induction h with
  | atom hatom =>
    apply Phrase.bounded_operand
    rw [Token.atom?_levels hatom]
    exact Nat.le_add_left 1 _
  | unary _ ih => exact Phrase.bounded_operand (Nat.succ_le_succ ih)
  | group _ ih =>
    -- The parentheses have no level, but what stands between them keeps all of its own.
    apply Phrase.bounded_operand
    rw [Expr.levels_withSpan]
    exact Nat.le_succ_of_le ih
  | lambda _ ih => exact Phrase.bounded_operand (Nat.succ_le_succ ih)
  | binary _ _ ihl ihr => exact Phrase.bounded_link ihl ihr (Nat.le_refl _)
  | call _ _ ihcallee ihargs => exact Phrase.bounded_link ihcallee ihargs (Nat.le_refl _)
  | member _ ih =>
    exact Phrase.bounded_link ih (Nat.zero_le _) (Nat.succ_le_succ (Nat.le_max_left _ 0))
  | assignName _ _ ihtarget ihvalue =>
    refine Phrase.bounded_expr (Phrase.bounded_link ihtarget ihvalue ?_)
    exact Nat.succ_le_succ (Nat.le_max_right _ _)
  | assignMember _ _ ihtarget ihvalue =>
    -- The member that is assigned to leaves no level of its own, only its object does.
    refine Phrase.bounded_expr (Phrase.bounded_link ihtarget ihvalue ?_)
    refine Nat.succ_le_succ (Nat.max_le.2 ⟨?_, ?_⟩)
    · exact Nat.le_trans (Nat.le_succ _) (Nat.le_max_left _ _)
    · exact Nat.le_max_right _ _
  | expr _ ih => exact Phrase.bounded_expr ih
  | noArgs => exact Nat.zero_le _
  | lastArg _ ih => exact Nat.max_le.2 ⟨ih, Nat.zero_le _⟩
  | arg _ _ ih ihrest => exact Nat.max_le.2 ⟨ih, ihrest⟩
  | function _ _ ih => exact ih
  | noMethods => exact Nat.zero_le _
  | method _ _ _ ih ihrest => exact Nat.max_le.2 ⟨ih, ihrest⟩
  | block _ ih => exact Nat.add_le_add ih (Nat.le_add_left 1 _)
  | noStmts => exact Nat.zero_le _
  | stmts _ _ _ ih ihrest => exact Nat.max_le.2 ⟨ih, ihrest⟩
  | conditional _ _ _ ihcondition ihblock ihelse =>
    exact Nat.max_le.2 ⟨ihcondition, Nat.max_le.2 ⟨ihblock, ihelse⟩⟩
  | noElse => exact Nat.zero_le _
  | elseBlock _ ih => exact ih
  | elseIf _ ih => exact Nat.add_le_add ih (Nat.le_add_left 1 _)
  | define _ ih => exact ih
  | declareClass _ ih => exact ih
  | runConditional _ ih => exact ih
  | giveNothing => exact Nat.zero_le _
  | giveBack _ ih => exact ih
  | load _ _ => exact Nat.zero_le _
  | runBlock _ ih => exact ih
  | evaluate _ ih => exact ih

theorem Stmt.levelsOfStmts_le {tokens : List Token} {stmts : List Stmt}
    (h : Repeated (Terminated TopLevel) tokens stmts) :
    Stmt.levelsOfStmts stmts ≤ levelBound nestingLimit := by
  induction h with
  | nil => exact Nat.zero_le _
  | cons hitem _ ih =>
    obtain ⟨ts, semi, -, hstmt, -⟩ := hitem
    refine Nat.max_le.2 ⟨?_, ih⟩
    cases hstmt with
    | package => exact Nat.zero_le _
    | stmt hstmt => exact hstmt.levels_le

/-- An accepted program has at most as many levels as all budgets together have units. -/
theorem Program.levels_le_of_ofTokens {stream : TokenStream} {p : Program}
    (h : ofTokens stream = .ok p) : 2 * p.levels ≤ nestingLimit * (nestingLimit + 1) := by
  have hlevels : p.levels ≤ levelBound nestingLimit :=
    Stmt.levelsOfStmts_le (ofTokens_accounted h)
  rw [← two_mul_levelBound]
  exact Nat.mul_le_mul_left 2 hlevels

/-! ### More levels than the limit

The links of a chain are forgotten at the parenthesis that ends it, while its levels stay. -/

mutual

/-- Spans make no levels. -/
theorem Expr.levels_shape : ∀ e : Expr, e.shape.levels = e.levels
  | .int _ _ | .float _ _ | .string _ _ | .bool _ _ | .nil _ | .selfRef _ | .name _ _ => rfl
  | .unary _ _ e => congrArg (· + 1) e.levels_shape
  | .binary _ l _ r => by
    rw [Expr.shape, Expr.levels, Expr.levels, l.levels_shape, r.levels_shape]
  | .call _ f args => by
    rw [Expr.shape, Expr.levels, Expr.levels, f.levels_shape, Expr.levelsOfArgs_shape args]
  | .member _ e _ => congrArg (· + 1) e.levels_shape
  | .assignName _ _ value => congrArg (· + 1) value.levels_shape
  | .assignMember _ e _ value => by
    rw [Expr.shape, Expr.levels, Expr.levels, e.levels_shape, value.levels_shape]
  | .lambda _ f => congrArg (· + 1) f.levels_shape

theorem Expr.levelsOfArgs_shape :
    ∀ es : List Expr, Expr.levelsOfArgs (Expr.shapeOfArgs es) = Expr.levelsOfArgs es
  | [] => rfl
  | e :: es => by
    rw [Expr.shapeOfArgs, Expr.levelsOfArgs, Expr.levelsOfArgs, e.levels_shape,
      Expr.levelsOfArgs_shape es]

theorem Lambda.levels_shape : ∀ f : Lambda, f.shape.levels = f.levels
  | .mk _ body _ => body.levels_shape

theorem Definition.levels_shape : ∀ d : Definition, d.shape.levels = d.levels
  | .mk _ f => f.levels_shape

theorem Definition.levelsOfMethods_shape : ∀ ds : List Definition,
    Definition.levelsOfMethods (Definition.shapeOfMethods ds) = Definition.levelsOfMethods ds
  | [] => rfl
  | d :: ds => by
    rw [Definition.shapeOfMethods, Definition.levelsOfMethods, Definition.levelsOfMethods,
      d.levels_shape, Definition.levelsOfMethods_shape ds]

theorem Block.levels_shape : ∀ b : Block, b.shape.levels = b.levels
  | .mk stmts _ => congrArg (· + 1) (Stmt.levelsOfStmts_shape stmts)

theorem Conditional.levels_shape : ∀ c : Conditional, c.shape.levels = c.levels
  | .mk condition thenBlock otherwise _ => by
    rw [Conditional.shape, Conditional.levels, Conditional.levels, condition.levels_shape,
      thenBlock.levels_shape, otherwise.levels_shape]

theorem ElseBranch.levels_shape : ∀ b : ElseBranch, b.shape.levels = b.levels
  | .absent => rfl
  | .block body => body.levels_shape
  | .elseIf next => congrArg (· + 1) next.levels_shape

theorem Stmt.levels_shape : ∀ s : Stmt, s.shape.levels = s.levels
  | .define d => d.levels_shape
  | .declareClass _ methods _ => Definition.levelsOfMethods_shape methods
  | .conditional c => c.levels_shape
  | .giveBack none _ => rfl
  | .giveBack (some e) _ => e.levels_shape
  | .load _ _ => rfl
  | .package _ _ => rfl
  | .block body => body.levels_shape
  | .expr e => e.levels_shape

theorem Stmt.levelsOfStmts_shape :
    ∀ stmts : List Stmt, Stmt.levelsOfStmts (Stmt.shapeOfStmts stmts) = Stmt.levelsOfStmts stmts
  | [] => rfl
  | s :: rest => by
    rw [Stmt.shapeOfStmts, Stmt.levelsOfStmts, Stmt.levelsOfStmts, s.levels_shape,
      Stmt.levelsOfStmts_shape rest]

end

theorem Program.levels_eq_of_shape_eq {p q : Program} (h : p.shape = q.shape) :
    p.levels = q.levels := by
  have hshape (p : Program) : p.shape.levels = p.levels := Stmt.levelsOfStmts_shape p.stmts
  rw [← hshape p, h, hshape q]

namespace Expr

/-- An expression with a number of operators after it, each with the operand `1`. -/
def followedBy (op : BinaryOp) : Nat → Expr → Expr
  | 0, e => e
  | n + 1, e => .binary .erased (e.followedBy op n) op (.int .erased 1)

/-- Each operator is one level. -/
theorem levels_followedBy (op : BinaryOp) (n : Nat) {e : Expr} (he : 1 ≤ e.levels) :
    (e.followedBy op n).levels = e.levels + n := by
  induction n with
  | zero => rfl
  | succ n ih =>
    have hone : (Expr.int .erased 1).levels = 1 := rfl
    rw [followedBy, levels, ih, hone]
    omega

theorem wellFormed_followedBy (op : BinaryOp) (n : Nat) {e : Expr} (he : e.WellFormed) :
    (e.followedBy op n).WellFormed := by
  induction n with
  | zero => exact he
  | succ n ih => exact ⟨ih, trivial⟩

end Expr

/-- The program `(1 + 1 + … + 1) * 1 * 1 * 1`, with 253 sums between the parentheses. -/
def Program.tower : Program where
  stmts := [.expr (((Expr.int .erased 1).followedBy .add 253).followedBy .mul 3)]
  span := .erased

/-- It is within the limit by the accounting of the parser, and has more levels than the limit. -/
theorem Program.tower_accepted :
    ∃ q, ofTokens ⟨tower.lexemes.map (Token.mk · .erased), .erased⟩ = .ok q ∧ q.levels = 257 := by
  have hwritable : tower.WellFormed := by
    intro s hs
    rw [tower, List.mem_singleton] at hs
    subst hs
    exact .inl (Expr.wellFormed_followedBy _ _ (Expr.wellFormed_followedBy _ _ trivial))
  have hcost : tower.cost ≤ nestingLimit := by decide +kernel
  have hlexemes : (tower.lexemes.map (Token.mk · .erased)).map Token.lexeme = tower.lexemes := by
    rw [List.map_map]
    exact List.map_id _
  obtain ⟨q, previous, hq, hrun⟩ := (program_reads hwritable _ [] .erased
    (Span.point Position.start) hlexemes rfl).1 hcost
  rw [List.append_nil] at hrun
  refine ⟨q, ?_, ?_⟩
  · rw [ofTokens, StateT.run, hrun]
    rfl
  · rw [levels_eq_of_shape_eq hq]
    have hsums : ((Expr.int .erased 1).followedBy .add 253).levels = 1 + 253 :=
      Expr.levels_followedBy .add 253 (Nat.le_refl 1)
    change max (((Expr.int .erased 1).followedBy .add 253).followedBy .mul 3).levels 0 = 257
    rw [Expr.levels_followedBy .mul 3 (by omega), hsums]
    rfl

/-- The bound is needed: an accepted program can have more levels than the limit. -/
theorem Program.not_levels_le_nestingLimit :
    ¬∀ (stream : TokenStream) (p : Program), ofTokens stream = .ok p → p.levels ≤ nestingLimit := by
  intro h
  obtain ⟨q, hq, hlevels⟩ := tower_accepted
  have hle := h _ q hq
  rw [hlevels] at hle
  exact absurd hle (by decide)

/-- The bound holds for it. -/
theorem Program.levels_le_tower :
    ∃ q, ofTokens ⟨tower.lexemes.map (Token.mk · .erased), .erased⟩ = .ok q ∧
      2 * q.levels ≤ nestingLimit * (nestingLimit + 1) := by
  obtain ⟨q, hq, -⟩ := tower_accepted
  exact ⟨q, hq, levels_le_of_ofTokens hq⟩

end ScriptLang
