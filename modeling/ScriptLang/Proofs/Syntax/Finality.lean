import ScriptLang.Proofs.Syntax.Acceptance
import ScriptLang.Proofs.Syntax.Assembly

/-!
# A fault of the syntax is final

The parsers of the language are put together from elementary ones, so a program that is refused with two
tokens ahead is refused in the same way whatever follows. One token would not be enough: after the word
`fx` the parser looks at the one behind it.

## Main definitions

* `Nested.Assembled`: the parsers of nested constructs are put together

## Main results

* `Grammar.program_assembled`: so is the parser of programs
* `Program.refusal_final`: tokens behind a fault do not repair it
-/

namespace ScriptLang

open ScriptLang.Parser

/-! ### Parsers that take a token -/

namespace Parser

theorem modulePath_consumes : modulePath.Consumes :=
  (modulePath_yields []).consumes fun path h => by cases h

end Parser

namespace Nested

theorem parameter_consumes (earlier : List Ident) : (parameter earlier).Consumes :=
  (parameter_yields earlier).consumes fun param h => by
    obtain ⟨h | ⟨h, -⟩, -⟩ := h <;> cases h

/-- What stands in front of an optional semicolon has a token. -/
theorem not_terminated_nil {α : Type} {item : List Token → α → Prop} {a : α} (h : ¬item [] a) :
    ¬Terminated item [] a := by
  rintro ⟨ts, semi, heq, ha, -⟩
  obtain ⟨rfl, -⟩ := List.append_eq_nil_iff.1 heq.symm
  exact h ha

section Sound

variable {n : Nat} {inner : Nested} (h : inner.Sound .everywhere n)
include h

theorem Sound.expression_consumes (least : BindingPower) : (inner.expression least).Consumes :=
  (h.expression least).consumes fun _ he => he.ne_nil (fun h => h) rfl

theorem Sound.block_consumes : inner.block.Consumes :=
  h.block.consumes fun _ hb => hb.ne_nil (fun h => h) rfl

theorem Sound.statement_consumes : inner.statement.Consumes :=
  h.statement.consumes fun _ hs => hs.ne_nil (fun h => h) rfl

theorem Sound.terminated_consumes : (terminated inner.statement).Consumes :=
  (terminated_yields h.statement).consumes fun _ =>
    not_terminated_nil fun hs => hs.ne_nil (fun h => h) rfl

theorem Sound.method_consumes : inner.method.Consumes :=
  h.method.consumes fun _ => not_terminated_nil fun hd => hd.ne_nil (fun h => h) rfl

end Sound

/-! ### The choice of a statement -/

/-- The parser of the statement that some tokens begin. -/
def statementOf (inner : Nested) : List Token → Parser Stmt
  | ⟨.keyword .fx, _⟩ :: ⟨.name _, _⟩ :: _ => Stmt.define <$> inner.definition
  | ⟨.keyword .clx, _⟩ :: _ => inner.classDeclaration
  | ⟨.keyword .ifWord, _⟩ :: _ => Stmt.conditional <$> inner.conditional
  | ⟨.keyword .returnWord, _⟩ :: _ => inner.giveBack
  | ⟨.keyword .load, _⟩ :: _ => load
  | ⟨.sign .leftBrace, _⟩ :: _ => Stmt.block <$> inner.block
  | ⟨.keyword .bag, span⟩ :: _ => failAt .nestedPackage span
  | _ => Stmt.expr <$> inner.anyExpression

theorem statement_eq (inner : Nested) :
    inner.statement = fun c => inner.statementOf c.ahead c := by
  funext c
  unfold statement
  split <;> simp_all [statementOf]

/-- Two tokens decide. -/
theorem statementOf_take (inner : Nested) (tokens : List Token) :
    inner.statementOf (tokens.take 2) = inner.statementOf tokens := by
  obtain _ | ⟨⟨lexeme, span⟩, _ | ⟨⟨lexeme', span'⟩, rest⟩⟩ := tokens
  · rfl
  · rfl
  · cases lexeme with
    | keyword k => cases k <;> cases lexeme' <;> rfl
    | sign s => cases s <;> rfl
    | _ => rfl

theorem statementOf_congr (inner : Nested) {c c' : Cursor}
    (h : c'.ahead.take 2 = c.ahead.take 2) :
    inner.statementOf c'.ahead = inner.statementOf c.ahead := by
  rw [← statementOf_take, h, statementOf_take]

theorem failsAt_statement {inner : Nested} {c c' : Cursor} {d : Diagnostic}
    (h : FailsAt (inner.statementOf c.ahead) c d c') : FailsAt inner.statement c d c' := by
  rw [statement_eq]
  exact .chosen (fun _ hc => inner.statementOf_congr hc) h

/-! ### One lemma for each parser -/

/-- The parsers of nested constructs are put together from elementary ones. -/
structure Assembled (inner : Nested) : Prop where
  expression (least : BindingPower) (c : Cursor) : Parser.Assembled (inner.expression least) c
  block (c : Cursor) : Parser.Assembled inner.block c
  elseIf (c : Cursor) : Parser.Assembled inner.elseIf c

theorem parameter_assembled (earlier : List Ident) (c : Cursor) :
    Parser.Assembled (parameter earlier) c := by
  refine .bind (.elementary .parameterName) fun param _ _ => ?_
  split
  · exact .elementary (.failAt _ _)
  · exact .elementary (.pure _)

theorem literal_assembled (make : Span → Expr) (c : Cursor) :
    Parser.Assembled (literal make) c :=
  .bind (.elementary .take) fun _ _ _ => .elementary (.pure _)

theorem load_assembled (c : Cursor) : Parser.Assembled load c := by
  have hpaths (earlier : List ModulePath) (c : Cursor) : Parser.Assembled modulePath c :=
    .elementary .modulePath
  refine .bind (.elementary .take) fun start _ _ => ?_
  refine .bind (.elementary (.expect _)) fun _ c' _ => ?_
  refine .bind (.commaList hpaths (fun _ => modulePath_consumes) [] c') fun paths _ _ => ?_
  refine .bind (.elementary (.expect _)) fun close _ _ => ?_
  dsimp only
  split
  · exact .elementary (.failAt _ _)
  · exact .elementary (.pure _)

theorem terminated_assembled {stmt : Parser Stmt} {c : Cursor} (h : Parser.Assembled stmt c) :
    Parser.Assembled (terminated stmt) c :=
  .bind h fun _ _ _ => .bind (.elementary (.eat _)) fun _ _ _ => .elementary (.pure _)

section Assembled

variable {inner : Nested} (h : inner.Assembled)
include h

theorem Assembled.lambda (start : Span) (c : Cursor) : Parser.Assembled (inner.lambda start) c := by
  refine .bind (.elementary (.expect _)) fun _ c₁ _ => ?_
  refine .bind (.commaList parameter_assembled parameter_consumes [] c₁) fun params _ _ => ?_
  refine .bind (.elementary (.expect _)) fun _ c₂ _ => ?_
  exact .bind (h.block c₂) fun body _ _ => .elementary (.pure _)

theorem Assembled.definition (c : Cursor) : Parser.Assembled inner.definition c := by
  refine .bind (.elementary .take) fun start _ _ => ?_
  refine .bind (.elementary .identifier) fun name c₁ _ => ?_
  exact .bind (h.lambda start c₁) fun f _ _ => .elementary (.pure _)

theorem Assembled.unary (op : UnaryOp) (c : Cursor) : Parser.Assembled (inner.unary op) c := by
  refine .bind (.elementary .take) fun start c₁ _ => ?_
  exact .bind (h.expression _ c₁) fun operand _ _ => .elementary (.pure _)

theorem Assembled.group (c : Cursor) : Parser.Assembled inner.group c := by
  refine .bind (.elementary .take) fun start c₁ _ => ?_
  refine .bind (h.expression _ c₁) fun e _ _ => ?_
  exact .bind (.elementary (.expect _)) fun close _ _ => .elementary (.pure _)

theorem Assembled.operand (c : Cursor) : Parser.Assembled inner.operand c := by
  refine .bind (.elementary .peek) fun next c₁ _ => ?_
  split
  iterate 8 exact literal_assembled _ c₁
  · exact h.unary _ c₁
  · exact h.unary _ c₁
  · exact h.group c₁
  · refine .bind (.elementary .take) fun start c₂ _ => ?_
    exact .bind (h.lambda start c₂) fun f _ _ => .elementary (.pure _)
  · exact .elementary (.unexpected _)

theorem Assembled.assignment (target : Expr) (c : Cursor) :
    Parser.Assembled (inner.assignment target) c := by
  refine .bind (.elementary .take) fun sign c₁ _ => ?_
  split
  · exact .bind (h.expression _ c₁) fun value _ _ => .elementary (.pure _)
  · exact .bind (h.expression _ c₁) fun value _ _ => .elementary (.pure _)
  · exact .elementary (.failAt _ _)

theorem Assembled.otherwise (c : Cursor) : Parser.Assembled inner.otherwise c := by
  refine .bind (.elementary (.eatWord _)) fun word _ _ => ?_
  split
  · refine .bind (.elementary .peek) fun next c₁ _ => ?_
    split
    · exact .map (h.elseIf c₁)
    · exact .map (h.block c₁)
  · exact .elementary (.pure _)

theorem Assembled.conditional (c : Cursor) : Parser.Assembled inner.conditional c := by
  refine .bind (.elementary .take) fun start c₁ _ => ?_
  refine .bind (h.expression _ c₁) fun condition c₂ _ => ?_
  refine .bind (h.block c₂) fun thenBlock c₃ _ => ?_
  refine .bind (h.otherwise c₃) fun branch _ _ => ?_
  exact .bind (.elementary .behind) fun _ _ _ => .elementary (.pure _)

theorem Assembled.method (c : Cursor) : Parser.Assembled inner.method c := by
  refine .bind (.elementary .peek) fun next c₁ _ => ?_
  split
  · refine .bind (h.definition c₁) fun d _ _ => ?_
    exact .bind (.elementary (.eat _)) fun _ _ _ => .elementary (.pure _)
  · exact .elementary (.unexpected _)

theorem Assembled.giveBack (c : Cursor) : Parser.Assembled inner.giveBack c := by
  refine .bind (.elementary .take) fun start _ _ => ?_
  refine .bind (.elementary .peek) fun next c₁ _ => ?_
  split
  iterate 3 exact .elementary (.pure _)
  exact .bind (h.expression _ c₁) fun value _ _ => .elementary (.pure _)

variable {n : Nat} (hs : inner.Sound .everywhere n)
include hs

theorem Assembled.follow (left : Expr) (link : Link) (c : Cursor) :
    Parser.Assembled (inner.follow left link) c := by
  cases link with
  | assign => exact h.assignment left c
  | binary op =>
    refine .bind (.elementary .take) fun _ c₁ _ => ?_
    exact .bind (h.expression _ c₁) fun right _ _ => .elementary (.pure _)
  | call =>
    refine .bind (.elementary .take) fun _ c₁ _ => ?_
    refine .bind (.commaList (fun _ => h.expression _) (fun _ => hs.expression_consumes _) [] c₁)
      fun args _ _ => ?_
    exact .bind (.elementary (.expect _)) fun close _ _ => .elementary (.pure _)
  | member =>
    refine .bind (.elementary .take) fun _ _ _ => ?_
    exact .bind (.elementary .identifier) fun member _ _ => .elementary (.pure _)

theorem Assembled.classDeclaration (c : Cursor) : Parser.Assembled inner.classDeclaration c := by
  refine .bind (.elementary .take) fun start _ _ => ?_
  refine .bind (.elementary .identifier) fun name _ _ => ?_
  refine .bind (.elementary (.expect _)) fun _ c₁ _ => ?_
  refine .bind (.many h.method hs.method_consumes (fun c c' hc => ?_) c₁) fun methods _ _ => ?_
  · rw [Cursor.sees_congr hc]
  · exact .bind (.elementary (.expect _)) fun close _ _ => .elementary (.pure _)

theorem Assembled.statement (c : Cursor) : Parser.Assembled inner.statement c := by
  have htakes := hs.statement_consumes
  rw [statement_eq] at htakes ⊢
  refine .lookAhead (fun _ hc => inner.statementOf_congr hc) (fun a c' hrun => htakes hrun) ?_
  unfold statementOf
  split
  · exact .map (h.definition c)
  · exact h.classDeclaration hs c
  · exact .map (h.conditional c)
  · exact h.giveBack c
  · exact load_assembled c
  · exact .map (h.block c)
  · exact .elementary (.failAt _ _)
  · exact .map (h.expression _ c)

theorem Assembled.braced (c : Cursor) : Parser.Assembled inner.braced c := by
  refine .bind (.elementary (.expect _)) fun start c₁ _ => ?_
  refine .bind (.many (fun c => terminated_assembled (h.statement hs c)) hs.terminated_consumes
    (fun c c' hc => ?_) c₁) fun stmts _ _ => ?_
  · rw [Cursor.sees_congr hc, Cursor.atEnd_congr hc]
  · exact .bind (.elementary (.expect _)) fun close _ _ => .elementary (.pure _)

theorem Assembled.topLevel (c : Cursor) : Parser.Assembled inner.topLevel c := by
  refine .bind (.elementary .peek) fun next c₁ _ => ?_
  split
  · refine .bind (.elementary .take) fun start _ _ => ?_
    exact .bind (.elementary .identifier) fun name _ _ => .elementary (.pure _)
  · exact h.statement hs c₁

end Assembled

end Nested

namespace Grammar

/-- The induction is on what the chain has to spend. -/
theorem chain_assembled {b : Nat} (hinner : ∀ m < b, (nested m).Assembled) (least : BindingPower)
    (left : Expr) (c : Cursor) : Assembled (chain b least left) c := by
  induction b generalizing left c with
  | zero =>
    rw [chain]
    refine .bind (.elementary .peek) fun next _ _ => ?_
    split
    · split
      · exact .elementary (.pure _)
      · exact .elementary .tooDeep
    · exact .elementary (.pure _)
  | succ b ih =>
    rw [chain]
    refine .bind (.elementary .peek) fun next c₁ _ => ?_
    split
    · next link _ =>
      split
      · exact .elementary (.pure _)
      · have hfollow := (hinner b (Nat.lt_succ_self b)).follow (nested_sound b) left link c₁
        exact .bind hfollow fun whole c₂ _ => ih (fun m hm => hinner m (Nat.lt_succ_of_lt hm)) whole c₂
    · exact .elementary (.pure _)

/-- The parsers of nested constructs are put together, with every budget. What is nested in them has
less to spend, so the induction is on the budget. -/
theorem nested_assembled (n : Nat) : (nested n).Assembled := by
  induction n using Nat.strongRecOn with
  | ind n ih =>
    cases n with
    | zero => exact ⟨fun _ _ => .elementary .tooDeep, fun _ => .elementary .tooDeep,
        fun _ => .elementary .tooDeep⟩
    | succ n =>
      have hinner := ih n (Nat.lt_succ_self n)
      refine ⟨fun least c => ?_, hinner.braced (nested_sound n), hinner.conditional⟩
      refine .bind (hinner.operand c) fun left c₁ _ => ?_
      exact chain_assembled (fun m hm => ih m (Nat.lt_succ_of_lt hm)) least left c₁

/-- A statement of a program, and a semicolon, if one follows. -/
def item : Parser Stmt := Nested.terminated (nested nestingLimit).topLevel

/-- The statements of a program. -/
def statements : Parser (List Stmt) := many (fun c => !c.atEnd) item

theorem item_assembled (c : Cursor) : Assembled item c :=
  Nested.terminated_assembled ((nested_assembled _).topLevel (nested_sound _) c)

theorem item_consumes : item.Consumes := by
  refine (Nested.terminated_yields (topLevel_yields (nested_sound _))).consumes fun _ => ?_
  refine Nested.not_terminated_nil fun h => ?_
  cases h with
  | stmt h => exact h.ne_nil (fun h => h) rfl

/-- The parser of programs is put together from elementary ones. -/
theorem program_assembled (c : Cursor) : Assembled program c := by
  refine .bind (.elementary .here) fun start c₁ _ => ?_
  refine .bind (.many item_assembled item_consumes (fun c c' hc => ?_) c₁) fun stmts _ _ => ?_
  · rw [Cursor.atEnd_congr hc]
  · split
    · exact .elementary (.pure _)
    · exact .bind (.elementary .behind) fun _ _ _ => .elementary (.pure _)

end Grammar

namespace Program

/-- Where a text is refused, the parser stands at one of its tokens or at the end. If that token and one
more are left, the text is refused in the same way whatever is put behind it. -/
theorem refusal_final {tokens : List Token} {finish : Span} {d : Diagnostic}
    (h : ofTokens ⟨tokens, finish⟩ = .error d) :
    (∃ c, FailsAt Grammar.program { ahead := tokens, finish } d c) ∧
      ∀ c, FailsAt Grammar.program { ahead := tokens, finish } d c → c.ahead <:+ tokens ∧
        (2 ≤ c.ahead.length →
          ∀ more finish', ofTokens ⟨tokens ++ more, finish'⟩ = .error d) := by
  refine ⟨(Grammar.program_assembled _).exists_failsAt (run_of_ofTokens_error h), fun c hc =>
    ⟨hc.suffix, fun htwo more finish' => ?_⟩⟩
  have hextend : Grammar.program { ahead := tokens ++ more, finish := finish' } = .error d :=
    hc.extend htwo
  change (Grammar.program { ahead := tokens ++ more, finish := finish' }).map Prod.fst = _
  rw [hextend]
  rfl

/-- A package is declared in a block. The word for it is not the last token. -/
theorem refusal_final_package :
    let at' (column : Nat) : Span := ⟨⟨1, column⟩, ⟨1, column + 1⟩⟩
    let tokens : List Token := [⟨.sign .leftBrace, at' 1⟩, ⟨.keyword .bag, at' 2⟩, ⟨.name "a", at' 3⟩]
    let d := Fault.nestedPackage.at (at' 2)
    ofTokens ⟨tokens, at' 3⟩ = .error d ∧
      FailsAt Grammar.program { ahead := tokens, finish := at' 3 } d
        ⟨tokens.drop 1, at' 3, at' 1⟩ ∧
      ofTokens ⟨tokens ++ [⟨.sign .rightBrace, at' 4⟩], at' 4⟩ = .error d := by
  intro at' tokens d
  have hblock : FailsAt (Grammar.nested nestingLimit).block { ahead := tokens, finish := at' 3 } d
      ⟨tokens.drop 1, at' 3, at' 1⟩ := by
    refine .next (.elementary (.expect _)) rfl (.first ?_)
    refine .many (Grammar.nested_sound _).terminated_consumes (fun c c' hc => ?_) rfl
      (.first (Nested.failsAt_statement ?_))
    · rw [Cursor.sees_congr hc, Cursor.atEnd_congr hc]
    · exact .here (.failAt _ _) rfl
  have hfails : FailsAt Grammar.program { ahead := tokens, finish := at' 3 } d
      ⟨tokens.drop 1, at' 3, at' 1⟩ := by
    refine .next (.elementary .here) rfl (.first ?_)
    refine .many Grammar.item_consumes (fun c c' hc => ?_) rfl (.first ?_)
    · rw [Cursor.atEnd_congr hc]
    · exact .next (.elementary .peek) rfl (Nested.failsAt_statement (.map hblock))
  have hrefused : ofTokens ⟨tokens, at' 3⟩ = .error d := by
    change (Grammar.program { ahead := tokens, finish := at' 3 }).map Prod.fst = _
    rw [hfails.run_eq]
    rfl
  exact ⟨hrefused, hfails, ((refusal_final hrefused).2 _ hfails).2 (Nat.le_refl _) _ _⟩

end Program

end ScriptLang
