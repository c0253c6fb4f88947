import ScriptLang.Proofs.Syntax.Chain

/-!
# Parsing undoes printing

Whatever tree is written is read again, as the same tree up to spans, if its nesting stays within
the budget of the parser; otherwise there is nothing but a diagnostic. There is one lemma for every
form of node, which says that the node is legible if its parts are, and an induction over all forms
at once.

## Main definitions

* `Block.Legible`, `Stmt.Legible` and the like: a node is read as it is written

## Main results

* `Expr.legible`, `Stmt.legible`: the trees that can be written are legible
* `Program.ofTokens_lexemes`: so are programs
-/

namespace ScriptLang

open ScriptLang.Parser

/-- The lexemes of a function, after the word `fx` and a name, are read as this function. -/
def Lambda.Legible (f : Lambda) : Prop :=
  ∀ budget start, Reads (f.cost ≤ budget) ((Grammar.nested budget).lambda start) f.lexemes Any
    (·.shape = f.shape)

/-- The lexemes of a function with a name are read as this one. -/
def Definition.Legible (d : Definition) : Prop :=
  ∀ budget, Reads (d.cost ≤ budget) (Grammar.nested budget).definition d.lexemes Any
    (·.shape = d.shape)

/-- The lexemes of a block are read as this block. -/
def Block.Legible (body : Block) : Prop :=
  ∀ budget, Reads (body.cost ≤ budget) (Grammar.block budget) body.lexemes Any
    (·.shape = body.shape)

/-- The lexemes of a conditional are read as this one. The word `else` would go on with it. -/
def Conditional.Legible (c : Conditional) : Prop :=
  ∀ budget, Reads (c.cost ≤ budget) (Grammar.nested budget).conditional c.lexemes
    (· ≠ some (.keyword .elseWord)) (·.shape = c.shape)

/-- The lexemes of the other branch of a conditional are read as this branch. -/
def ElseBranch.Legible (b : ElseBranch) : Prop :=
  ∀ budget, Reads (b.cost ≤ budget) (Grammar.nested budget).otherwise b.lexemes
    (· ≠ some (.keyword .elseWord)) (·.shape = b.shape)

/-- The lexemes of a statement, before its semicolon, are read as this statement. -/
def Stmt.Legible (s : Stmt) : Prop :=
  ∀ budget, Reads (s.cost ≤ budget) (Grammar.nested budget).statement s.lexemes
    (· = some (.sign .semicolon)) (·.shape = s.shape)

/-! ### Functions -/

/-- A parameter is read if none of the earlier ones has its name. -/
theorem parameter_reads {earlier : List Ident} {param : Ident}
    (hnew : param.name ∉ earlier.map Ident.name) :
    Reads True (Nested.parameter earlier) [param.asParameter] Any (·.name = param.name) := by
  refine (parameterName_reads param).andThen (fun a ha => ?_) fun _ _ => trivial
  -- The parser compares the name with those of the parameters it has read.
  have hany : earlier.any (·.name = a.name) = false := by
    rw [List.any_eq_false]
    intro i hi hname
    rw [decide_eq_true_eq, ha] at hname
    exact hnew (hname ▸ List.mem_map_of_mem hi)
  rw [hany]
  exact pure_reads ha

/-- Parameters with different names are read. -/
theorem parameters_reads {params : List Ident} (hnodup : (params.map Ident.name).Nodup) :
    Reads True (commaList Nested.parameter)
      (commaSeparated (params.map fun param => [param.asParameter])) (· = some (.sign .rightParen))
      (·.map Ident.name = params.map Ident.name) := by
  have hread : Reads (∀ param ∈ params, True) (commaList Nested.parameter)
      (commaSeparated (params.map fun param => [param.asParameter])) (· = some (.sign .rightParen))
      (·.map Ident.name = params.map Ident.name) := by
    refine commaList_reads (fun param _ => ?_) fun done param later hall earlier hearlier => ?_
    · refine ⟨param.asParameter, [], rfl, ?_⟩
      rw [Ident.asParameter]
      split <;> simp
    · refine (parameter_reads ?_).before _
      rw [hall, List.map_append, List.map_cons, List.nodup_append] at hnodup
      rw [hearlier]
      intro hmem
      exact hnodup.2.2 _ hmem _ List.mem_cons_self rfl
  exact hread.mono (by simp) rfl fun _ hnext => hnext

theorem Lambda.legible_mk {params : List Ident} {body : Block} (span : Span)
    (hnodup : (params.map Ident.name).Nodup) (hbody : body.Legible) :
    (Lambda.mk params body span).Legible := by
  intro budget start
  refine (expect_reads .leftParen).andThen (fun _ _ => ?_) fun _ _ => trivial
  refine (parameters_reads hnodup).andThen (fun as has => ?_) fun _ _ => rfl
  refine (expect_reads .rightParen).andThen (fun _ _ => ?_) fun _ _ => trivial
  refine (hbody budget).bind_pure fun a ha => ?_
  have hparams : as.map Ident.shape = params.map Ident.shape := by
    have hshape : Ident.shape = (fun name => ⟨name, .erased⟩) ∘ Ident.name := rfl
    rw [hshape, ← List.map_map, ← List.map_map, has]
  rw [shape, shape, ha, hparams]

theorem Definition.legible_mk (name : Ident) {f : Lambda} (hf : f.Legible) :
    (Definition.mk name f).Legible := by
  intro budget
  refine (take_reads _).andThen (fun start _ => ?_) fun _ _ => trivial
  refine (identifier_reads name.name).andThen (fun i hi => ?_) fun _ _ => trivial
  refine (hf budget start).bind_pure fun a ha => ?_
  rw [shape, shape, ha, Ident.shape, Ident.shape, hi]

theorem Expr.legible_lambda (span : Span) {f : Lambda} (hf : f.Legible) :
    (Expr.lambda span f).Legible := by
  refine legible_of_operand rfl fun budget => ?_
  refine peek_steps ((take_reads _).andThen (fun start _ => ?_) fun _ _ => trivial)
  refine Reads.before ((hf budget start).bind_pure fun a ha => ?_) _
  rw [shape, shape, ha]

/-! ### Blocks and conditionals -/

/-- A statement is read together with its semicolon. -/
theorem terminated_reads {stmt : Parser Stmt} {s : Stmt} {enough : Prop}
    (h : Reads enough stmt s.lexemes (· = some (.sign .semicolon)) (·.shape = s.shape)) :
    Reads enough (Nested.terminated stmt) (s.lexemes ++ [.sign .semicolon]) Any
      (·.shape = s.shape) := by
  refine h.bindFree (fun a ha => ?_) fun _ _ => rfl
  exact (eat_reads .semicolon).bind_pure fun _ _ => ha

theorem Block.legible_mk {stmts : List Stmt} (span : Span) (hstmts : ∀ s ∈ stmts, s.Legible) :
    (Block.mk stmts span).Legible := by
  intro budget
  cases budget with
  | zero => exact Grammar.tooDeep_reads (Nat.not_succ_le_zero _)
  | succ budget =>
    -- The statements have one less to spend than the block.
    have hlist : Reads (Stmt.costOfStmts stmts + 1 ≤ budget + 1)
        (many (fun c => !c.sees .rightBrace && !c.atEnd)
          (Nested.terminated (Grammar.nested budget).statement))
        (Stmt.lexemesOfStmts stmts) (· = some (.sign .rightBrace))
        (·.map Stmt.shape = stmts.map Stmt.shape) := by
      rw [Stmt.lexemesOfStmts_eq_flatMap, Nat.add_le_add_iff_right, Stmt.costOfStmts_le_iff]
      refine many_reads (fun c hc => ?_)
        (fun _ _ => trivial : ∀ next, next = some (.sign .rightBrace) → Any next) stmts
        (fun s _ => ?_) fun s hs => terminated_reads (hstmts s hs budget)
      · rw [sees_eq_true hc]
        rfl
      · -- No statement begins with the brace that ends the block.
        obtain ⟨l, ls, hl, hbrace, -⟩ := s.exists_cons
        refine ⟨l, ls ++ [.sign .semicolon], ?_, trivial, fun c hc => ?_⟩
        · rw [hl, List.cons_append]
        · rw [sees_eq_false, atEnd_eq_false hc]
          · rfl
          · rw [hc]
            exact fun h => hbrace (Option.some.inj h)
    refine (expect_reads .leftBrace).andThen (fun _ _ => ?_) fun _ _ => trivial
    rw [cost]
    refine hlist.bindFree (fun as has => ?_) fun _ _ => rfl
    refine (expect_reads .rightBrace).bind_pure fun _ _ => ?_
    rw [shape, shape, Stmt.shapeOfStmts_eq_map, Stmt.shapeOfStmts_eq_map, has]

theorem Block.firstOf_lexemes (body : Block) (ls : List Lexeme) (next : Option Lexeme) :
    firstOf (body.lexemes ++ ls) next = some (.sign .leftBrace) := by
  obtain ⟨stmts, span⟩ := body
  rfl

theorem ElseBranch.legible_absent : ElseBranch.absent.Legible := by
  intro budget
  have hfree : ElseBranch.absent.cost ≤ budget ↔ True := by simp [cost]
  rw [hfree]
  refine (eatWord_skips .elseWord).andThen (fun b hb => ?_) fun _ hnext => hnext
  subst hb
  exact pure_reads rfl

theorem ElseBranch.legible_block {body : Block} (h : body.Legible) :
    (ElseBranch.block body).Legible := by
  intro budget
  refine (eatWord_reads .elseWord).andThen (fun b hb => ?_) fun _ _ => trivial
  subst hb
  have hread : Reads (body.cost ≤ budget) (ElseBranch.block <$> Grammar.block budget) body.lexemes
      (· ≠ some (.keyword .elseWord)) (·.shape = (ElseBranch.block body).shape) := by
    refine Reads.before ((h budget).map fun a ha => ?_) _
    rw [shape, shape, ha]
  obtain ⟨stmts, span⟩ := body
  exact peek_steps hread

theorem ElseBranch.legible_elseIf {next : Conditional} (h : next.Legible) :
    (ElseBranch.elseIf next).Legible := by
  intro budget
  refine (eatWord_reads .elseWord).andThen (fun b hb => ?_) fun _ _ => trivial
  subst hb
  have hnext : Reads (next.cost + 1 ≤ budget) (Grammar.elseIf budget) next.lexemes
      (· ≠ some (.keyword .elseWord)) (·.shape = next.shape) := by
    cases budget with
    | zero => exact Grammar.tooDeep_reads (Nat.not_succ_le_zero _)
    | succ budget => exact (h budget).mono Nat.succ_le_succ_iff.symm rfl fun _ hnext => hnext
  have hread : Reads (next.cost + 1 ≤ budget) (ElseBranch.elseIf <$> Grammar.elseIf budget)
      next.lexemes (· ≠ some (.keyword .elseWord)) (·.shape = (ElseBranch.elseIf next).shape) := by
    refine hnext.map fun a ha => ?_
    rw [shape, shape, ha]
  obtain ⟨condition, thenBlock, otherwise, span⟩ := next
  exact peek_steps hread

theorem Conditional.legible_mk {condition : Expr} {thenBlock : Block} {otherwise : ElseBranch}
    (span : Span) (hcondition : condition.Legible) (hthen : thenBlock.Legible)
    (hotherwise : otherwise.Legible) :
    (Conditional.mk condition thenBlock otherwise span).Legible := by
  intro budget
  have hbrace : Ends BindingPower.assignment (some (.sign .leftBrace)) :=
    .of_ofLexeme?_eq_none rfl
  refine (take_reads _).andThen (fun _ _ => ?_) fun _ _ => trivial
  refine (hcondition.anyExpression budget).bind Nat.max_le (fun a ha => ?_) fun next _ => ?_
  · refine (hthen budget).bind Nat.max_le (fun b hb => ?_) fun _ _ => trivial
    refine (hotherwise budget).bindLast (fun o ho => ?_) fun _ hnext => hnext
    refine Reads.before (behind_reads.bind_pure fun _ _ => ?_) _
    rw [shape, shape, ha, hb, ho]
  · rw [thenBlock.firstOf_lexemes]
    exact hbrace

/-! ### Statements -/

theorem Stmt.legible_define {d : Definition} (h : d.Legible) : (Stmt.define d).Legible := by
  intro budget
  have hread : Reads (d.cost ≤ budget) (Stmt.define <$> (Grammar.nested budget).definition)
      d.lexemes (· = some (.sign .semicolon)) (·.shape = (Stmt.define d).shape) := by
    refine Reads.before ((h budget).map fun a ha => ?_) _
    rw [shape, shape, ha]
  obtain ⟨name, f⟩ := d
  refine hread.congr fun tokens rest finish previous htokens => ?_
  -- The word `fx` begins a statement of its own only before a name.
  obtain ⟨token, tail, rfl, hfx, htail⟩ := List.map_eq_cons_iff.1 htokens
  obtain ⟨token', tail', rfl, hname, -⟩ := List.map_eq_cons_iff.1 htail
  obtain ⟨l, span⟩ := token
  obtain ⟨l', span'⟩ := token'
  cases hfx
  cases hname
  rfl

/-- A method is read before another method and before the end of its class. -/
theorem method_reads {d : Definition} (h : d.Legible) (budget : Nat) :
    Reads (d.cost ≤ budget) (Grammar.nested budget).method d.lexemes (· ≠ some (.sign .semicolon))
      (·.shape = d.shape) := by
  have hread : Reads (d.cost ≤ budget) (do
      let d ← (Grammar.nested budget).definition
      let _ ← eat .semicolon
      return d) d.lexemes (· ≠ some (.sign .semicolon)) (·.shape = d.shape) := by
    refine (h budget).bindLast (fun a ha => ?_) fun _ _ => trivial
    exact (eat_skips .semicolon).bind_pure fun _ _ => ha
  obtain ⟨name, f⟩ := d
  exact peek_steps hread

theorem Stmt.legible_declareClass (name : Ident) {methods : List Definition} (span : Span)
    (h : ∀ d ∈ methods, d.Legible) : (Stmt.declareClass name methods span).Legible := by
  intro budget
  have hlist : Reads (Definition.costOfMethods methods ≤ budget)
      (many (fun c => !c.sees .rightBrace) (Grammar.nested budget).method)
      (Definition.lexemesOfMethods methods) (· = some (.sign .rightBrace))
      (·.map Definition.shape = methods.map Definition.shape) := by
    rw [Definition.lexemesOfMethods_eq_flatMap, Definition.costOfMethods_le_iff]
    refine many_reads (fun c hc => ?_) (fun next hnext => ?_) methods (fun d _ => ?_)
      fun d hd => method_reads (h d hd) budget
    · rw [sees_eq_true hc]
      rfl
    · subst hnext
      simp
    · obtain ⟨name, f⟩ := d
      refine ⟨_, _, rfl, by simp, fun c hc => ?_⟩
      rw [sees_eq_false]
      · rfl
      · rw [hc]
        simp
  have hread : Reads (Definition.costOfMethods methods ≤ budget)
      (Grammar.nested budget).classDeclaration (Stmt.declareClass name methods span).lexemes
      (· = some (.sign .semicolon)) (·.shape = (Stmt.declareClass name methods span).shape) := by
    refine (take_reads _).andThen (fun _ _ => ?_) fun _ _ => trivial
    refine (identifier_reads name.name).andThen (fun i hi => ?_) fun _ _ => trivial
    refine (expect_reads .leftBrace).andThen (fun _ _ => ?_) fun _ _ => trivial
    refine hlist.bindFree (fun as has => ?_) fun _ _ => rfl
    refine Reads.before ((expect_reads .rightBrace).bind_pure fun _ _ => ?_) _
    rw [shape, shape, Definition.shapeOfMethods_eq_map, Definition.shapeOfMethods_eq_map, has,
      Ident.shape, Ident.shape, hi]
  exact hread.of_head fun _ _ _ _ => rfl

theorem Stmt.legible_conditional {c : Conditional} (h : c.Legible) :
    (Stmt.conditional c).Legible := by
  intro budget
  have hread : Reads (c.cost ≤ budget) (Stmt.conditional <$> (Grammar.nested budget).conditional)
      c.lexemes (· = some (.sign .semicolon)) (·.shape = (Stmt.conditional c).shape) := by
    refine Steps.mono ((h budget).map fun a ha => ?_) Iff.rfl rfl fun next hnext => ?_
    · rw [shape, shape, ha]
    · subst hnext
      simp
  obtain ⟨condition, thenBlock, otherwise, span⟩ := c
  exact hread.of_head fun _ _ _ _ => rfl

theorem Stmt.legible_giveBack_none (span : Span) : (Stmt.giveBack none span).Legible := by
  intro budget
  have hfree : (Stmt.giveBack none span).cost ≤ budget ↔ True := by simp [cost]
  rw [hfree]
  have hread : Reads True (Grammar.nested budget).giveBack (Stmt.giveBack none span).lexemes
      (· = some (.sign .semicolon)) (·.shape = (Stmt.giveBack none span).shape) := by
    refine (take_reads _).andThen (fun start _ => ?_) fun _ _ => trivial
    refine reads_nil fun c hc => ⟨.giveBack none start, rfl, ?_⟩
    have hpeek : peek c = .ok (c.lexeme?, c) := rfl
    -- The semicolon is next, so there is nothing to give back.
    rw [bind_of_ok hpeek, hc]
    rfl
  exact hread.of_head fun _ _ _ _ => rfl

theorem Stmt.legible_giveBack_some {e : Expr} (span : Span) (h : e.Legible) :
    (Stmt.giveBack (some e) span).Legible := by
  intro budget
  have hsemicolon : Ends BindingPower.assignment (some (.sign .semicolon)) :=
    .of_ofLexeme?_eq_none rfl
  have hread : Reads (e.cost + 1 ≤ budget) (Grammar.nested budget).giveBack
      (Stmt.giveBack (some e) span).lexemes (· = some (.sign .semicolon))
      (·.shape = (Stmt.giveBack (some e) span).shape) := by
    refine (take_reads _).andThen (fun start _ => ?_) fun _ _ => trivial
    have hvalue : Reads (e.cost + 1 ≤ budget) (do
        let value ← (Grammar.nested budget).anyExpression
        return Stmt.giveBack (some value) (start.merge value.span)) e.lexemes
        (· = some (.sign .semicolon)) (·.shape = (Stmt.giveBack (some e) span).shape) := by
      refine Reads.bind_pure ((h.anyExpression budget).mono Iff.rfl rfl ?_) fun a ha => ?_
      · rintro next rfl
        exact hsemicolon
      · rw [shape, shape, ha]
    obtain ⟨l, rest, hl, -, hbrace, hsemi, -⟩ := e.opens.exists_cons
    rw [hl] at hvalue ⊢
    -- The value begins with none of the tokens that end the statement.
    refine peek_steps ?_
    split
    · next heq => cases heq
    · next heq => exact absurd (Option.some.inj heq) hbrace
    · next heq => exact absurd (Option.some.inj heq) hsemi
    · exact hvalue
  exact hread.of_head fun _ _ _ _ => rfl

/-- Module names are read, which takes no budget. -/
theorem paths_reads (paths : List ModulePath) :
    Reads True (commaList fun _ => modulePath)
      (commaSeparated (paths.map fun p => [.string p.path])) (· = some (.sign .rightParen))
      (·.map ModulePath.path = paths.map ModulePath.path) := by
  have hread : Reads (∀ p ∈ paths, True) (commaList fun _ => modulePath)
      (commaSeparated (paths.map fun p => [.string p.path])) (· = some (.sign .rightParen))
      (·.map ModulePath.path = paths.map ModulePath.path) :=
    commaList_reads (fun p _ => ⟨.string p.path, [], rfl, by simp⟩)
      fun _ p _ _ _ _ => (modulePath_reads p.path).before _
  exact hread.mono (by simp) rfl fun _ hnext => hnext

theorem Stmt.legible_load {paths : List ModulePath} (span : Span) (hpaths : paths ≠ []) :
    (Stmt.load paths span).Legible := by
  intro budget
  have hfree : (Stmt.load paths span).cost ≤ budget ↔ True := by simp [cost]
  rw [hfree]
  have hread : Reads True Nested.load (Stmt.load paths span).lexemes
      (· = some (.sign .semicolon)) (·.shape = (Stmt.load paths span).shape) := by
    refine (take_reads _).andThen (fun start _ => ?_) fun _ _ => trivial
    refine (expect_reads .leftParen).andThen (fun _ _ => ?_) fun _ _ => trivial
    refine (paths_reads paths).andThen (fun as has => ?_) fun _ _ => rfl
    have hnonempty : ¬as.isEmpty = true := by
      rw [List.isEmpty_iff]
      rintro rfl
      exact hpaths (List.map_eq_nil_iff.1 has.symm)
    have hshape : as.map ModulePath.shape = paths.map ModulePath.shape := by
      have hpath : ModulePath.shape = (fun path => ⟨path, .erased⟩) ∘ ModulePath.path := rfl
      rw [hpath, ← List.map_map, ← List.map_map, has]
    refine (expect_reads .rightParen).bindLast (fun _ _ => ?_) fun _ _ => trivial
    rw [if_neg hnonempty]
    apply pure_reads
    rw [shape, shape, hshape]
  exact hread.of_head fun _ _ _ _ => rfl

theorem Stmt.legible_block {body : Block} (h : body.Legible) : (Stmt.block body).Legible := by
  intro budget
  have hread : Reads (body.cost ≤ budget) (Stmt.block <$> Grammar.block budget) body.lexemes
      (· = some (.sign .semicolon)) (·.shape = (Stmt.block body).shape) := by
    refine Reads.before ((h budget).map fun a ha => ?_) _
    rw [shape, shape, ha]
  obtain ⟨stmts, span⟩ := body
  exact hread.of_head fun _ _ _ _ => rfl

/-- What begins like an expression is not taken for another statement. -/
theorem statement_of_opens (inner : Nested) {tokens : List Token} (rest : List Token)
    (finish previous : Span) (h : OpensExpression (tokens.map Token.lexeme)) :
    inner.statement ⟨tokens ++ rest, finish, previous⟩ =
      (Stmt.expr <$> inner.anyExpression) ⟨tokens ++ rest, finish, previous⟩ := by
  cases tokens with
  | nil => cases h
  | cons token tokens =>
    obtain ⟨l, span⟩ := token
    cases l with
    | keyword k =>
      cases k with
      | fx =>
        -- A parenthesis follows, so this is no function with a name.
        cases tokens with
        | nil => cases h
        | cons token tokens =>
          obtain ⟨l, span⟩ := token
          cases h
          rfl
      | trueWord | falseWord | nilWord | selfWord => rfl
      | _ => cases h
    | sign s => cases s <;> first | rfl | cases h
    | _ => rfl

theorem Stmt.legible_expr {e : Expr} (h : e.Legible) : (Stmt.expr e).Legible := by
  intro budget
  have hsemicolon : Ends BindingPower.assignment (some (.sign .semicolon)) :=
    .of_ofLexeme?_eq_none rfl
  have hread : Reads (e.cost + 1 ≤ budget) (Stmt.expr <$> (Grammar.nested budget).anyExpression)
      e.lexemes (· = some (.sign .semicolon)) (·.shape = (Stmt.expr e).shape) := by
    refine Reads.map ((h.anyExpression budget).mono Iff.rfl rfl ?_) fun a ha => ?_
    · rintro next rfl
      exact hsemicolon
    · rw [shape, shape, ha]
  refine hread.congr fun tokens rest finish previous htokens => ?_
  refine statement_of_opens _ rest finish previous ?_
  rw [htokens]
  exact e.opens

/-! ### All trees -/

mutual

/-- Every expression that can be written is legible. -/
theorem Expr.legible : ∀ e : Expr, e.WellFormed → e.Legible
  | .int _ n, _ =>
    Expr.legible_of_token rfl rfl rfl fun _ span _ _ _ => ⟨.int span n, rfl, rfl⟩
  | .float _ x, _ =>
    Expr.legible_of_token rfl rfl rfl fun _ span _ _ _ => ⟨.float span x, rfl, rfl⟩
  | .string _ s, _ =>
    Expr.legible_of_token rfl rfl rfl fun _ span _ _ _ => ⟨.string span s, rfl, rfl⟩
  | .bool _ true, _ =>
    Expr.legible_of_token rfl rfl rfl fun _ span _ _ _ => ⟨.bool span true, rfl, rfl⟩
  | .bool _ false, _ =>
    Expr.legible_of_token rfl rfl rfl fun _ span _ _ _ => ⟨.bool span false, rfl, rfl⟩
  | .nil _, _ =>
    Expr.legible_of_token rfl rfl rfl fun _ span _ _ _ => ⟨.nil span, rfl, rfl⟩
  | .selfRef _, _ =>
    Expr.legible_of_token rfl rfl rfl fun _ span _ _ _ => ⟨.selfRef span, rfl, rfl⟩
  | .name span name, _ => Expr.legible_name span name
  | .unary span op e, h => Expr.legible_unary span op (Expr.legible e h)
  | .binary span l op r, h => Expr.legible_binary span op (Expr.legible l h.1) (Expr.legible r h.2)
  | .call span f args, h => Expr.legible_call span (Expr.legible f h.1) (Expr.legible_args args h.2)
  | .member span e member, h => Expr.legible_member span member (Expr.legible e h)
  | .assignName span target value, h => Expr.legible_assignName span target (Expr.legible value h)
  | .assignMember span e member value, h =>
    Expr.legible_assignMember span member (Expr.legible e h.1) (Expr.legible value h.2)
  | .lambda span f, h => Expr.legible_lambda span (Lambda.legible f h)

theorem Expr.legible_args : ∀ es : List Expr, Expr.WellFormedArgs es → ∀ e ∈ es, e.Legible
  | [], _ => by simp
  | e :: es, h => List.forall_mem_cons.2 ⟨Expr.legible e h.1, Expr.legible_args es h.2⟩

/-- Every function that can be written is legible. -/
theorem Lambda.legible : ∀ f : Lambda, f.WellFormed → f.Legible
  | .mk _ body span, h => Lambda.legible_mk span h.1 (Block.legible body h.2)

/-- Every function with a name that can be written is legible. -/
theorem Definition.legible : ∀ d : Definition, d.WellFormed → d.Legible
  | .mk name f, h => Definition.legible_mk name (Lambda.legible f h)

theorem Definition.legible_methods :
    ∀ ds : List Definition, Definition.WellFormedMethods ds → ∀ d ∈ ds, d.Legible
  | [], _ => by simp
  | d :: ds, h =>
    List.forall_mem_cons.2 ⟨Definition.legible d h.1, Definition.legible_methods ds h.2⟩

/-- Every block that can be written is legible. -/
theorem Block.legible : ∀ body : Block, body.WellFormed → body.Legible
  | .mk stmts span, h => Block.legible_mk span (Stmt.legible_stmts stmts h)

/-- Every conditional that can be written is legible. -/
theorem Conditional.legible : ∀ c : Conditional, c.WellFormed → c.Legible
  | .mk condition thenBlock otherwise span, h =>
    Conditional.legible_mk span (Expr.legible condition h.1) (Block.legible thenBlock h.2.1)
      (ElseBranch.legible otherwise h.2.2)

/-- Every other branch that can be written is legible. -/
theorem ElseBranch.legible : ∀ b : ElseBranch, b.WellFormed → b.Legible
  | .absent, _ => ElseBranch.legible_absent
  | .block body, h => ElseBranch.legible_block (Block.legible body h)
  | .elseIf next, h => ElseBranch.legible_elseIf (Conditional.legible next h)

/-- Every statement that can be written in a block is legible. -/
theorem Stmt.legible : ∀ s : Stmt, s.WellFormed → s.Legible
  | .define d, h => Stmt.legible_define (Definition.legible d h)
  | .declareClass name methods span, h =>
    Stmt.legible_declareClass name span (Definition.legible_methods methods h)
  | .conditional c, h => Stmt.legible_conditional (Conditional.legible c h)
  | .giveBack none span, _ => Stmt.legible_giveBack_none span
  | .giveBack (some e) span, h => Stmt.legible_giveBack_some span (Expr.legible e h)
  | .load _ span, h => Stmt.legible_load span h
  | .package _ _, h => h.elim
  | .block body, h => Stmt.legible_block (Block.legible body h)
  | .expr e, h => Stmt.legible_expr (Expr.legible e h)

theorem Stmt.legible_stmts :
    ∀ stmts : List Stmt, Stmt.WellFormedStmts stmts → ∀ s ∈ stmts, s.Legible
  | [], _ => by simp
  | s :: rest, h => List.forall_mem_cons.2 ⟨Stmt.legible s h.1, Stmt.legible_stmts rest h.2⟩

end

/-! ### Programs -/

/-- A statement that can be written at the top of a program is read there. -/
theorem topLevel_reads {s : Stmt} (h : s.WellFormed ∨ ∃ name span, s = .package name span)
    (budget : Nat) :
    Reads (s.cost ≤ budget) (Grammar.nested budget).topLevel s.lexemes
      (· = some (.sign .semicolon)) (·.shape = s.shape) := by
  rcases h with h | ⟨name, span, rfl⟩
  · obtain ⟨l, rest, hl, -, hbag⟩ := s.exists_cons
    have hread := s.legible h budget
    rw [hl] at hread ⊢
    -- Only a package begins with the word `bag`.
    refine peek_steps ?_
    split
    · next heq => exact absurd (Option.some.inj heq) (hbag h)
    · exact hread
  · have hfree : (Stmt.package name span).cost ≤ budget ↔ True := by simp [Stmt.cost]
    rw [hfree]
    refine peek_steps ((take_reads _).andThen (fun _ _ => ?_) fun _ _ => trivial)
    refine Reads.before ((identifier_reads name.name).bind_pure fun i hi => ?_) _
    rw [Stmt.shape, Stmt.shape, Ident.shape, Ident.shape, hi]

/-- The lexemes of a program that can be written are read as this program, up to the end of the
text. -/
theorem program_reads {p : Program} (h : p.WellFormed) :
    Reads (p.cost ≤ nestingLimit) Grammar.program p.lexemes (· = none) (·.shape = p.shape) := by
  have hlist : Reads (p.cost ≤ nestingLimit)
      (many (fun c => !c.atEnd) (Nested.terminated (Grammar.nested nestingLimit).topLevel))
      p.lexemes (· = none) (·.map Stmt.shape = p.stmts.map Stmt.shape) := by
    rw [Program.lexemes, Program.cost, Stmt.lexemesOfStmts_eq_flatMap, Stmt.costOfStmts_le_iff]
    refine many_reads (fun c hc => ?_) (fun _ _ => trivial : ∀ next, next = none → Any next) p.stmts
      (fun s _ => ?_) fun s hs => terminated_reads (topLevel_reads (h s hs) nestingLimit)
    · rw [atEnd_eq_true hc]
      rfl
    · obtain ⟨l, ls, hl, -⟩ := s.exists_cons
      refine ⟨l, ls ++ [.sign .semicolon], ?_, trivial, fun c hc => ?_⟩
      · rw [hl, List.cons_append]
      · rw [atEnd_eq_false hc]
        rfl
  have hshape (as : List Stmt) (span : Span) (has : as.map Stmt.shape = p.stmts.map Stmt.shape) :
      (Program.mk as span).shape = p.shape := by
    rw [Program.shape, Program.shape, Stmt.shapeOfStmts_eq_map, Stmt.shapeOfStmts_eq_map, has]
  refine here_reads.andThen (fun start _ => ?_) fun _ _ => trivial
  refine hlist.bindLast (fun as has => ?_) fun _ hnext => hnext
  -- The span of a program depends on whether it is empty; its shape does not.
  by_cases hempty : as.isEmpty = true
  · rw [if_pos hempty]
    exact pure_reads (hshape as start has)
  · rw [if_neg hempty]
    refine Reads.before (behind_reads.bind_pure fun _ _ => ?_) _
    exact hshape as _ has

namespace Program

/-- **Parsing undoes printing.** From the lexemes of a program that can be written the parser makes
the same program, up to spans, exactly if what the program costs is within the budget of the parser.
-/
theorem ofTokens_lexemes (p : Program) (h : p.WellFormed) (stream : TokenStream)
    (hstream : stream.tokens.map Token.lexeme = p.lexemes) :
    (∃ q, ofTokens stream = .ok q ∧ q.shape = p.shape) ↔ p.cost ≤ nestingLimit := by
  obtain ⟨hok, hfail⟩ := program_reads h stream.tokens [] stream.finish (Span.point Position.start)
    hstream rfl
  -- The program takes all tokens, and nothing follows.
  rw [List.append_nil] at hok hfail
  rw [ofTokens]
  constructor
  · rintro ⟨q, hq, -⟩
    by_cases hcost : p.cost ≤ nestingLimit
    · exact hcost
    · obtain ⟨d, hd⟩ := hfail hcost
      rw [StateT.run, hd] at hq
      cases hq
  · intro hcost
    obtain ⟨q, previous, hq, hp⟩ := hok hcost
    refine ⟨q, ?_, hq⟩
    rw [StateT.run, hp]
    rfl

/-- The program `f = fx(n) { return n - (1 - n); };`. -/
def complement : Program where
  stmts :=
    [.expr (.assignName .erased ⟨"f", .erased⟩ (.lambda .erased (.mk [⟨"n", .erased⟩]
      (.mk [.giveBack (some (.binary .erased (.name .erased "n") .sub
        (.binary .erased (.int .erased 1) .sub (.name .erased "n")))) .erased] .erased) .erased)))]
  span := .erased

/-- The parentheses are needed, and they are read again. -/
theorem ofTokens_complement :
    ∃ q, ofTokens ⟨[.name "f", .sign .assign, .keyword .fx, .sign .leftParen, .name "n",
        .sign .rightParen, .sign .leftBrace, .keyword .returnWord, .name "n", .sign .minus,
        .sign .leftParen, .int 1, .sign .minus, .name "n", .sign .rightParen, .sign .semicolon,
        .sign .rightBrace, .sign .semicolon].map (Token.mk · .erased), .erased⟩ = .ok q ∧
      q.shape = complement.shape := by
  have hwritable : complement.WellFormed := by
    intro s hs
    rw [complement, List.mem_singleton] at hs
    subst hs
    exact .inl ⟨by simp, ⟨trivial, trivial, trivial⟩, trivial⟩
  exact (ofTokens_lexemes complement hwritable _ rfl).2 (by decide)

end Program

end ScriptLang
