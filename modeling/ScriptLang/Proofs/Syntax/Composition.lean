import ScriptLang.Proofs.Syntax.Finality

/-!
# Programs compose at a semicolon

Where a statement ends, a semicolon is as good as the end of the text: a parser that reads all there is
reads the same where a semicolon follows. A statement does not look back either, to what was read before
it. So two programs with a semicolon between them are one, and whether the second one is accepted does not
depend on the first.

## Main definitions

* `Parser.Keeps`: what is read is read again where the text goes on
* `Parser.Forgets`: what was read before does not matter

## Main results

* `Grammar.nested_keeps`: what the parsers of nested constructs read they read before a semicolon
* `Program.ofTokens_compose`: two programs and a semicolon
-/

namespace ScriptLang

/-- Nothing, or tokens that begin with a semicolon. -/
def ClosesStatement (tail : List Token) : Prop :=
  ∀ token ∈ tail.head?, token.lexeme = .sign .semicolon

/-- What is next there. -/
theorem ClosesStatement.next_eq {tail : List Token} (h : ClosesStatement tail) :
    tail.head?.map Token.lexeme = none ∨
      tail.head?.map Token.lexeme = some (.sign .semicolon) := by
  cases tail with
  | nil => exact .inl rfl
  | cons token rest => exact .inr (congrArg some (h token rfl))

namespace Parser

variable {α β : Type} {tail : List Token} {p : Parser α} {c : Cursor}

/-! ### Reading again -/

/-- What a run reads, from a cursor on, is read again where the text goes on with some tokens. -/
def Keeps (tail : List Token) (p : Parser α) (c : Cursor) : Prop :=
  ∀ ⦃a : α⦄ ⦃c' : Cursor⦄, p c = .ok (a, c') →
    ∀ finish, p (c.extend tail finish) = .ok (a, c'.extend tail finish)

/-- The parser ends with a diagnostic where the text ends. -/
def Needs (p : Parser α) : Prop :=
  ∀ ⦃c : Cursor⦄, c.ahead = [] → ∀ r, p c ≠ .ok r

theorem Consumes.needs (h : p.Consumes) : p.Needs := by
  intro c hc r hrun
  have hless := h hrun
  rw [hc] at hless
  exact absurd hless (Nat.not_lt_zero _)

theorem Needs.bind {k : α → Parser β} (h : p.Needs) : (p >>= k).Needs := by
  intro c hc r hrun
  obtain ⟨a, c', hfirst, -⟩ := exists_of_bind_ok hrun
  exact h hc _ hfirst

theorem Needs.map {f : α → β} (h : p.Needs) : (f <$> p).Needs := by
  rw [← bind_pure_comp]
  exact h.bind

theorem expect_needs (s : Sign) : (expect s).Needs := by
  intro c hc r hrun
  obtain ⟨ahead, finish, previous⟩ := c
  subst hc
  cases hrun

theorem identifier_needs : identifier.Needs := by
  intro c hc r hrun
  obtain ⟨ahead, finish, previous⟩ := c
  subst hc
  cases hrun

namespace Keeps

theorem pure (a : α) : Keeps tail (Pure.pure a) c := by
  intro a' c' hrun finish
  cases hrun
  rfl

theorem of_error {d : Diagnostic} (h : p c = .error d) : Keeps tail p c := by
  intro a c' hrun
  rw [h] at hrun
  cases hrun

theorem of_needs (h : p.Needs) (hc : c.ahead = []) : Keeps tail p c :=
  fun _ _ hrun => absurd hrun (h hc _)

theorem elementary (h : Elementary p) (hc : c.ahead ≠ []) : Keeps tail p c := by
  intro a c' hrun finish
  rw [h.extend hc, hrun]
  rfl

theorem behind : Keeps tail behind c := by
  intro a c' hrun finish
  cases hrun
  rfl

/-- Nothing is added, but the text ends in another place. -/
theorem eat_nil (s : Sign) : Keeps [] (eat s) c := by
  by_cases hc : c.ahead = []
  · intro b c' hrun finish
    obtain ⟨ahead, finish', previous⟩ := c
    subst hc
    cases hrun
    rfl
  · exact .elementary (.eat s) hc

/-- A word is next where the text goes on if it was next before. -/
theorem eatWord (htail : ClosesStatement tail) (k : Keyword) : Keeps tail (eatWord k) c := by
  by_cases hc : c.ahead = []
  · intro b c' hrun finish
    have hends (c : Cursor) (hc : ClosesStatement c.ahead) : c.seesWord k = false := by
      refine seesWord_eq_false fun hnext => ?_
      obtain hnone | hsemicolon := hc.next_eq
      · cases hnone.symm.trans hnext
      · cases hsemicolon.symm.trans hnext
    have hc' : ClosesStatement c.ahead := by
      rw [hc]
      exact fun _ h => nomatch h
    have htail' : ClosesStatement (c.extend tail finish).ahead := by
      rwa [Cursor.extend, hc]
    rw [Parser.eatWord, if_neg (by simp [hends c hc'])] at hrun
    cases hrun
    rw [Parser.eatWord, if_neg (by simp [hends _ htail'])]
  · exact .elementary (.eatWord k) hc

/-- An elementary parser that needs a token. -/
theorem token (h : Elementary p) (hneeds : p.Needs) : Keeps tail p c := by
  by_cases hc : c.ahead = []
  · exact .of_needs hneeds hc
  · exact .elementary h hc

theorem bind {k : α → Parser β} (h : Keeps tail p c)
    (hk : ∀ a c', p c = .ok (a, c') → Keeps tail (k a) c') : Keeps tail (p >>= k) c := by
  intro b c' hrun finish
  obtain ⟨a, c₁, hfirst, hnext⟩ := exists_of_bind_ok hrun
  rw [bind_of_ok (h hfirst finish)]
  exact hk a c₁ hfirst hnext finish

/-- Where the second parser needs a token, the first one has left one. -/
theorem bind_of_needs {k : α → Parser β} (h : Assembled p c) (hneeds : ∀ a, (k a).Needs)
    (hk : ∀ a c', p c = .ok (a, c') → Keeps tail (k a) c') : Keeps tail (p >>= k) c := by
  intro b c' hrun finish
  obtain ⟨a, c₁, hfirst, hnext⟩ := exists_of_bind_ok hrun
  have hleft : c₁.ahead ≠ [] := fun hend => hneeds a hend _ hnext
  rw [bind_of_ok (h.extend hfirst hleft)]
  exact hk a c₁ hfirst hnext finish

theorem map {f : α → β} (h : Keeps tail p c) : Keeps tail (f <$> p) c := by
  rw [← bind_pure_comp]
  exact h.bind fun _ _ _ => .pure _

/-- To look at the next token makes no difference where the parser needs one, or does the same before a
semicolon and at the end. -/
theorem peek {k : Option Lexeme → Parser β} (h : c.ahead ≠ [] → Keeps tail (k c.lexeme?) c)
    (hend : (k none).Needs ∨
      k (tail.head?.map Token.lexeme) = k none ∧ Keeps tail (k none) c) :
    Keeps tail (peek >>= k) c := by
  intro b c' hrun finish
  have hpeek (c : Cursor) : Parser.peek c = .ok (c.lexeme?, c) := rfl
  rw [bind_of_ok (hpeek c)] at hrun
  rw [bind_of_ok (hpeek _)]
  by_cases hc : c.ahead = []
  · have hnone : c.lexeme? = none := by
      rw [Cursor.lexeme?, hc]
      rfl
    have hnext : (c.extend tail finish).lexeme? = tail.head?.map Token.lexeme := by
      rw [Cursor.lexeme?, Cursor.extend, hc]
      rfl
    rw [hnone] at hrun
    obtain hneeds | ⟨hsame, hkeeps⟩ := hend
    · exact absurd hrun (hneeds hc _)
    · rw [hnext, hsame]
      exact hkeeps hrun finish
  · rw [Cursor.lexeme?_extend hc]
    exact h hc hrun finish

end Keeps

/-! ### Looking back -/

/-- Where a token is ahead it does not matter which one was read before. -/
def Forgets (p : Parser α) : Prop :=
  ∀ (tokens : List Token) (finish previous previous' : Span), tokens ≠ [] →
    p ⟨tokens, finish, previous⟩ = p ⟨tokens, finish, previous'⟩

namespace Forgets

/-- What comes behind the first parser stands behind what that one has read. -/
theorem bind {k : α → Parser β} (h : p.Forgets) : (p >>= k).Forgets :=
  fun tokens finish previous previous' hne =>
    bind_congr_of_run (h tokens finish previous previous' hne)

theorem map {f : α → β} (h : p.Forgets) : (f <$> p).Forgets := by
  rw [← bind_pure_comp]
  exact h.bind

theorem peek {k : Option Lexeme → Parser β} (h : ∀ next, (k next).Forgets) :
    (peek >>= k).Forgets :=
  fun tokens finish previous previous' hne => h _ tokens finish previous previous' hne

theorem take : take.Forgets := by
  intro tokens finish previous previous' hne
  obtain ⟨token, rest, rfl⟩ := List.exists_cons_of_ne_nil hne
  rfl

theorem failAt (fault : Fault) (span : Span) : (failAt fault span : Parser α).Forgets :=
  fun _ _ _ _ _ => rfl

theorem unexpected (expected : String) : (unexpected expected : Parser α).Forgets :=
  fun _ _ _ _ _ => rfl

theorem tooDeep : (Grammar.tooDeep : Parser α).Forgets :=
  fun _ _ _ _ _ => rfl

theorem expect (s : Sign) : (expect s).Forgets := by
  intro tokens finish previous previous' hne
  obtain ⟨token, rest, rfl⟩ := List.exists_cons_of_ne_nil hne
  rfl

end Forgets

end Parser

open ScriptLang.Parser

namespace Nested

/-- What the parsers of nested constructs read they read again where the text goes on. -/
structure Keeps (tail : List Token) (inner : Nested) : Prop where
  expression (least : BindingPower) (c : Cursor) : Parser.Keeps tail (inner.expression least) c
  block (c : Cursor) : Parser.Keeps tail inner.block c
  elseIf (c : Cursor) (hc : c.ahead ≠ []) : Parser.Keeps tail inner.elseIf c

variable {tail : List Token} {inner : Nested} {n : Nat} {c : Cursor}

theorem literal_keeps (make : Span → Expr) (hc : c.ahead ≠ []) :
    Parser.Keeps tail (literal make) c :=
  .bind (.elementary .take hc) fun _ _ _ => .pure _

theorem load_keeps (hc : c.ahead ≠ []) : Parser.Keeps tail load c := by
  have hpaths (earlier : List ModulePath) (c : Cursor) : Parser.Assembled modulePath c :=
    .elementary .modulePath
  refine .bind (.elementary .take hc) fun start _ _ => ?_
  refine .bind (.token (.expect _) (expect_needs _)) fun _ c₁ _ => ?_
  refine .bind_of_needs (.commaList hpaths (fun _ => modulePath_consumes) [] c₁)
    (fun _ => (expect_needs _).bind) fun paths _ _ => ?_
  refine .bind (.token (.expect _) (expect_needs _)) fun close _ _ => ?_
  dsimp only
  split
  · exact .of_error rfl
  · exact .pure _

/-- What begins with a statement goes on with it at the tokens behind, but not after the word `fx`. -/
theorem statementOf_append (inner : Nested) (htail : ClosesStatement tail) {tokens : List Token}
    (hne : tokens ≠ []) : inner.statementOf (tokens ++ tail) = inner.statementOf tokens := by
  obtain _ | ⟨⟨lexeme, span⟩, _ | ⟨token, rest⟩⟩ := tokens
  · exact absurd rfl hne
  · cases tail with
    | nil => rfl
    | cons semicolon rest =>
      obtain ⟨lexeme', span'⟩ := semicolon
      obtain rfl : lexeme' = .sign .semicolon := htail _ rfl
      cases lexeme with
      | keyword k => cases k <;> rfl
      | sign s => cases s <;> rfl
      | _ => rfl
  · rw [← inner.statementOf_take, ← inner.statementOf_take (_ :: _ :: rest)]
    rfl

theorem classDeclaration_keeps (hassembled : inner.Assembled) (hsound : inner.Sound .everywhere n)
    (hc : c.ahead ≠ []) : Parser.Keeps tail inner.classDeclaration c := by
  refine .bind (.elementary .take hc) fun start _ _ => ?_
  refine .bind (.token .identifier identifier_needs) fun name _ _ => ?_
  refine .bind (.token (.expect _) (expect_needs _)) fun _ c₁ _ => ?_
  refine .bind_of_needs (.many hassembled.method hsound.method_consumes (fun c c' hc => ?_) c₁)
    (fun _ => (expect_needs _).bind) fun methods _ _ => ?_
  · rw [Cursor.sees_congr hc]
  · exact .bind (.token (.expect _) (expect_needs _)) fun close _ _ => .pure _

theorem braced_keeps (hassembled : inner.Assembled) (hsound : inner.Sound .everywhere n) :
    Parser.Keeps tail inner.braced c := by
  refine .bind (.token (.expect _) (expect_needs _)) fun start c₁ _ => ?_
  refine .bind_of_needs (.many (fun c => terminated_assembled (hassembled.statement hsound c))
    hsound.terminated_consumes (fun c c' hc => ?_) c₁) (fun _ => (expect_needs _).bind)
    fun stmts _ _ => ?_
  · rw [Cursor.sees_congr hc, Cursor.atEnd_congr hc]
  · exact .bind (.token (.expect _) (expect_needs _)) fun close _ _ => .pure _

section Keeps

variable (h : inner.Keeps tail)
include h

theorem Keeps.lambda (start : Span) : Parser.Keeps tail (inner.lambda start) c := by
  refine .bind (.token (.expect _) (expect_needs _)) fun _ c₁ _ => ?_
  refine .bind_of_needs (.commaList parameter_assembled parameter_consumes [] c₁)
    (fun _ => (expect_needs _).bind) fun params _ _ => ?_
  refine .bind (.token (.expect _) (expect_needs _)) fun _ c₂ _ => ?_
  exact .bind (h.block c₂) fun body _ _ => .pure _

theorem Keeps.definition (hc : c.ahead ≠ []) : Parser.Keeps tail inner.definition c := by
  refine .bind (.elementary .take hc) fun start _ _ => ?_
  refine .bind (.token .identifier identifier_needs) fun name _ _ => ?_
  exact .bind (h.lambda start) fun f _ _ => .pure _

theorem Keeps.unary (op : UnaryOp) (hc : c.ahead ≠ []) : Parser.Keeps tail (inner.unary op) c := by
  refine .bind (.elementary .take hc) fun start c₁ _ => ?_
  exact .bind (h.expression _ c₁) fun operand _ _ => .pure _

theorem Keeps.group (hc : c.ahead ≠ []) : Parser.Keeps tail inner.group c := by
  refine .bind (.elementary .take hc) fun start c₁ _ => ?_
  refine .bind (h.expression _ c₁) fun e _ _ => ?_
  exact .bind (.token (.expect _) (expect_needs _)) fun close _ _ => .pure _

theorem Keeps.operand : Parser.Keeps tail inner.operand c := by
  refine .peek (fun hc => ?_) (.inl fun _ _ _ hrun => nomatch hrun)
  split
  iterate 8 exact literal_keeps _ hc
  · exact h.unary _ hc
  · exact h.unary _ hc
  · exact h.group hc
  · refine .bind (.elementary .take hc) fun start _ _ => ?_
    exact .bind (h.lambda start) fun f _ _ => .pure _
  · exact .of_error rfl

theorem Keeps.assignment (target : Expr) (hc : c.ahead ≠ []) :
    Parser.Keeps tail (inner.assignment target) c := by
  refine .bind (.elementary .take hc) fun sign c₁ _ => ?_
  split
  · exact .bind (h.expression _ c₁) fun value _ _ => .pure _
  · exact .bind (h.expression _ c₁) fun value _ _ => .pure _
  · exact .of_error rfl

theorem Keeps.follow (hassembled : inner.Assembled) (hsound : inner.Sound .everywhere n) (left : Expr)
    (link : Link) (hc : c.ahead ≠ []) : Parser.Keeps tail (inner.follow left link) c := by
  cases link with
  | assign => exact h.assignment left hc
  | binary op =>
    refine .bind (.elementary .take hc) fun _ c₁ _ => ?_
    exact .bind (h.expression _ c₁) fun right _ _ => .pure _
  | call =>
    refine .bind (.elementary .take hc) fun _ c₁ _ => ?_
    refine .bind_of_needs (.commaList (fun _ => hassembled.expression _)
      (fun _ => hsound.expression_consumes _) [] c₁) (fun _ => (expect_needs _).bind) fun args _ _ => ?_
    exact .bind (.token (.expect _) (expect_needs _)) fun close _ _ => .pure _
  | member =>
    refine .bind (.elementary .take hc) fun _ _ _ => ?_
    exact .bind (.token .identifier identifier_needs) fun member _ _ => .pure _

/-! ### Statements -/

variable (htail : ClosesStatement tail)
include htail

theorem Keeps.giveBack (hc : c.ahead ≠ []) : Parser.Keeps tail inner.giveBack c := by
  refine .bind (.elementary .take hc) fun start c₁ _ => .peek (fun _ => ?_) (.inr ⟨?_, .pure _⟩)
  · split
    iterate 3 exact .pure _
    exact .bind (h.expression _ c₁) fun value _ _ => .pure _
  · -- A value is missing at the end, and before a semicolon.
    obtain hnext | hnext := htail.next_eq
    · rw [hnext]
    · rw [hnext]

theorem Keeps.otherwise (hsound : inner.Sound .everywhere n) :
    Parser.Keeps tail inner.otherwise c := by
  refine .bind (.eatWord htail _) fun word c₁ _ => ?_
  split
  · refine .peek (fun hc₁ => ?_) (.inl hsound.block_consumes.needs.map)
    split
    · exact .map (h.elseIf c₁ hc₁)
    · exact .map (h.block c₁)
  · exact .pure _

theorem Keeps.conditional (hsound : inner.Sound .everywhere n) (hc : c.ahead ≠ []) :
    Parser.Keeps tail inner.conditional c := by
  refine .bind (.elementary .take hc) fun start c₁ _ => ?_
  refine .bind (h.expression _ c₁) fun condition c₂ _ => ?_
  refine .bind (h.block c₂) fun thenBlock c₃ _ => ?_
  refine .bind (h.otherwise htail hsound) fun branch c₄ _ => ?_
  exact .bind .behind fun _ _ _ => .pure _

theorem Keeps.statement (hassembled : inner.Assembled) (hsound : inner.Sound .everywhere n) :
    Parser.Keeps tail inner.statement c := by
  by_cases hc : c.ahead = []
  · exact .of_needs hsound.statement_consumes.needs hc
  have hkeeps : Parser.Keeps tail (inner.statementOf c.ahead) c := by
    unfold statementOf
    split
    · exact .map (h.definition hc)
    · exact classDeclaration_keeps hassembled hsound hc
    · exact .map (h.conditional htail hsound hc)
    · exact h.giveBack htail hc
    · exact load_keeps hc
    · exact .map (h.block c)
    · exact .of_error rfl
    · exact .map (h.expression _ c)
  intro s c' hrun finish
  rw [statement_eq] at hrun ⊢
  dsimp only [Cursor.extend]
  rw [inner.statementOf_append htail hc]
  exact hkeeps hrun finish

theorem Keeps.topLevel (hassembled : inner.Assembled) (hsound : inner.Sound .everywhere n) :
    Parser.Keeps tail inner.topLevel c := by
  refine .peek (fun hc => ?_) (.inl hsound.statement_consumes.needs)
  split
  · refine .bind (.elementary .take hc) fun start _ _ => ?_
    exact .bind (.token .identifier identifier_needs) fun name _ _ => .pure _
  · exact h.statement htail hassembled hsound

end Keeps

/-! ### What was read before -/

section Forgets

variable (inner : Nested)

theorem braced_forgets : inner.braced.Forgets := (Forgets.expect _).bind

theorem conditional_forgets : inner.conditional.Forgets := Forgets.take.bind

theorem operand_forgets : inner.operand.Forgets := by
  refine .peek fun next => ?_
  split
  iterate 12 exact Forgets.take.bind
  exact .unexpected _

variable {inner}

theorem statement_forgets (hexpression : ∀ least, (inner.expression least).Forgets)
    (hblock : inner.block.Forgets) : inner.statement.Forgets := by
  intro tokens finish previous previous' hne
  have hforgets : (inner.statementOf tokens).Forgets := by
    unfold statementOf
    split
    · exact Forgets.take.bind.map
    · exact Forgets.take.bind
    · exact inner.conditional_forgets.map
    · exact Forgets.take.bind
    · exact Forgets.take.bind
    · exact hblock.map
    · exact .failAt _ _
    · exact (hexpression _).map
  rw [statement_eq]
  exact hforgets tokens finish previous previous' hne

theorem topLevel_forgets (hstatement : inner.statement.Forgets) : inner.topLevel.Forgets := by
  refine .peek fun next => ?_
  split
  · exact Forgets.take.bind
  · exact hstatement

end Forgets

end Nested

namespace Grammar

variable {tail : List Token}

/-- The induction is on what the chain has to spend. A chain ends at the end and before a semicolon. -/
theorem chain_keeps (htail : ClosesStatement tail) {b : Nat}
    (hinner : ∀ m < b, (nested m).Keeps tail) (least : BindingPower) (left : Expr) (c : Cursor) :
    Keeps tail (chain b least left) c := by
  induction b generalizing left c with
  | zero =>
    rw [chain]
    refine .peek (fun hc => ?_) (.inr ⟨?_, .pure _⟩)
    · split
      · split
        · exact .pure _
        · exact .of_error rfl
      · exact .pure _
    · obtain hnext | hnext := htail.next_eq
      · rw [hnext]
      · rw [hnext]
        rfl
  | succ b ih =>
    rw [chain]
    refine .peek (fun hc => ?_) (.inr ⟨?_, .pure _⟩)
    · split
      · next link _ =>
        split
        · exact .pure _
        · refine .bind ((hinner b (Nat.lt_succ_self b)).follow (nested_assembled b) (nested_sound b)
            left link hc) fun whole c₁ _ => ?_
          exact ih (fun m hm => hinner m (Nat.lt_succ_of_lt hm)) whole c₁
      · exact .pure _
    · obtain hnext | hnext := htail.next_eq
      · rw [hnext]
      · rw [hnext]
        rfl

/-- What the parsers of nested constructs read they read before a semicolon too, with every budget. What
is nested in them has less to spend, so the induction is on the budget. -/
theorem nested_keeps (htail : ClosesStatement tail) (n : Nat) : (nested n).Keeps tail := by
  induction n using Nat.strongRecOn with
  | ind n ih =>
    cases n with
    | zero => exact ⟨fun _ _ => .of_error rfl, fun _ => .of_error rfl, fun _ _ => .of_error rfl⟩
    | succ n =>
      have hinner := ih n (Nat.lt_succ_self n)
      refine ⟨fun least c => ?_, fun c => ?_, fun c hc => ?_⟩
      · refine .bind hinner.operand fun left c₁ _ => ?_
        exact chain_keeps htail (fun m hm => ih m (Nat.lt_succ_of_lt hm)) least left c₁
      · exact Nested.braced_keeps (nested_assembled n) (nested_sound n)
      · exact hinner.conditional htail (nested_sound n) hc

theorem topLevel_keeps (htail : ClosesStatement tail) (c : Cursor) :
    Keeps tail (nested nestingLimit).topLevel c :=
  (nested_keeps htail _).topLevel htail (nested_assembled _) (nested_sound _)

theorem expression_forgets (n : Nat) (least : BindingPower) : (expression n least).Forgets := by
  cases n with
  | zero => exact .tooDeep
  | succ n => exact (Nested.operand_forgets _).bind

theorem block_forgets (n : Nat) : (block n).Forgets := by
  cases n with
  | zero => exact .tooDeep
  | succ n => exact Nested.braced_forgets _

/-! ### The statements of a program -/

theorem statements_eq (c : Cursor) : statements c =
    (if !c.atEnd then item >>= fun first => statements >>= fun rest => pure (first :: rest)
      else pure [] : Parser (List Stmt)) c :=
  congrFun (many_eq item_consumes) c

theorem statements_of_nil {c : Cursor} (hc : c.ahead = []) : statements c = .ok ([], c) := by
  rw [statements_eq, if_neg (by simp [Cursor.atEnd, hc])]
  rfl

theorem statements_of_ne_nil {c : Cursor} (hc : c.ahead ≠ []) :
    statements c = (item >>= fun first => statements >>= fun rest => pure (first :: rest)) c := by
  rw [statements_eq, if_pos (by simpa [Cursor.atEnd] using hc)]

theorem item_forgets : item.Forgets :=
  (Nested.topLevel_forgets
    (Nested.statement_forgets (expression_forgets _) (block_forgets _))).bind

/-- What was read before the first statement does not matter. -/
theorem map_statements_eq (tokens : List Token) (finish previous previous' : Span) :
    (statements ⟨tokens, finish, previous⟩).map Prod.fst =
      (statements ⟨tokens, finish, previous'⟩).map Prod.fst := by
  by_cases hne : tokens = []
  · rw [statements_of_nil hne, statements_of_nil hne]
    rfl
  · rw [statements_of_ne_nil hne, statements_of_ne_nil hne,
      item_forgets.bind tokens finish previous previous' hne]

/-- Where the text ends does not matter for what it is made of. -/
theorem statements_keeps (c : Cursor) : Keeps [] statements c := by
  have hitem (c : Cursor) : Keeps [] item c :=
    .bind (topLevel_keeps (fun _ h => by cases h) c) fun _ c₁ _ =>
      .bind (.eat_nil _) fun _ _ _ => .pure _
  induction hn : c.ahead.length using Nat.strongRecOn generalizing c with
  | ind n ih =>
    by_cases hc : c.ahead = []
    · intro ss c' hrun finish
      rw [statements_of_nil hc] at hrun
      cases hrun
      exact statements_of_nil (by rw [Cursor.extend, hc]; rfl)
    · intro ss c' hrun finish
      rw [statements_of_ne_nil hc] at hrun
      rw [statements_of_ne_nil (by simpa [Cursor.extend] using hc)]
      refine Keeps.bind (hitem c) (fun s c₁ hfirst => ?_) hrun finish
      exact .bind (ih _ (hn ▸ item_consumes hfirst) c₁ rfl) fun _ _ _ => .pure _

/-- The last statement of a text that ends without a semicolon reads the one that is put behind it. -/
theorem item_extend {c c' : Cursor} {s : Stmt} (hrun : item c = .ok (s, c')) (hend : c'.ahead = [])
    (hlast : ∀ token ∈ c.ahead.getLast?, token.lexeme ≠ .sign .semicolon)
    (semicolon finish : Span) (us : List Token) :
    item (c.extend (⟨.sign .semicolon, semicolon⟩ :: us) finish) =
      .ok (s, ⟨us, finish, semicolon⟩) := by
  obtain ⟨s, c₁, htop, hrest⟩ := exists_of_bind_ok hrun
  obtain ⟨found, c₂, heat, hpure⟩ := exists_of_bind_ok hrest
  cases hpure
  -- If the statement had read a semicolon of its own, that would be the last token.
  have hnone : c₁.ahead = [] := by
    obtain ⟨front, hfront⟩ := ((nested_assembled _).topLevel (nested_sound _) c).suffix htop
    by_cases hne : c₁.ahead = []
    · exact hne
    exfalso
    obtain ⟨token, rest, hahead⟩ := List.exists_cons_of_ne_nil hne
    unfold eat at heat
    split at heat
    · next hsees =>
      cases heat
      obtain rfl : rest = [] := by simpa [Cursor.next, hahead] using hend
      have hnext := Cursor.lexeme?_of_sees hsees
      rw [Cursor.lexeme?, hahead] at hnext
      refine hlast token ?_ (Option.some.inj hnext)
      rw [← hfront, hahead]
      simp
    · cases heat
      exact hne hend
  have htail : ClosesStatement (⟨.sign .semicolon, semicolon⟩ :: us) := by
    rintro token ⟨⟩
    rfl
  have hkeeps := topLevel_keeps htail c htop finish
  have hfound : eat .semicolon (c₁.extend (⟨.sign .semicolon, semicolon⟩ :: us) finish) =
      .ok (true, ⟨us, finish, semicolon⟩) := by
    rw [Cursor.extend, hnone]
    rfl
  exact (bind_of_ok hkeeps).trans (bind_of_ok hfound)

/-- The induction is on the tokens. Behind the last statement the semicolon is read as its own. -/
theorem statements_extend {c c' : Cursor} {ss : List Stmt} (hrun : statements c = .ok (ss, c'))
    (hne : c.ahead ≠ []) (hlast : ∀ token ∈ c.ahead.getLast?, token.lexeme ≠ .sign .semicolon)
    (semicolon finish : Span) (us : List Token) :
    statements (c.extend (⟨.sign .semicolon, semicolon⟩ :: us) finish) =
      (statements >>= fun more => pure (ss ++ more)) ⟨us, finish, semicolon⟩ := by
  induction hn : c.ahead.length using Nat.strongRecOn generalizing c ss with
  | ind n ih =>
    rw [statements_of_ne_nil hne] at hrun
    obtain ⟨s, c₁, hitem, hrest⟩ := exists_of_bind_ok hrun
    obtain ⟨rest, c₂, hrest, hpure⟩ := exists_of_bind_ok hrest
    cases hpure
    rw [statements_of_ne_nil (by simp [Cursor.extend])]
    by_cases hleft : c₁.ahead = []
    · rw [bind_of_ok (item_extend hitem hleft hlast semicolon finish us)]
      rw [statements_of_nil hleft] at hrest
      cases hrest
      rfl
    · rw [bind_of_ok ((item_assembled c).extend hitem hleft)]
      have hlast' : ∀ token ∈ c₁.ahead.getLast?, token.lexeme ≠ .sign .semicolon := by
        obtain ⟨front, hfront⟩ := (item_assembled c).suffix hitem
        intro token htoken
        refine hlast token ?_
        rw [← hfront, List.getLast?_append, Option.mem_def.1 htoken]
        rfl
      rw [bind_congr_of_run (ih _ (hn ▸ item_consumes hitem) hrest hleft hlast' rfl), bind_assoc]
      rfl

end Grammar

namespace Program

theorem map_bind_pure {α β : Type} (p : Parser α) (f : α → β) (c : Cursor) :
    ((p >>= fun a => pure (f a)) c).map Prod.fst = ((p c).map Prod.fst).map f := by
  cases hrun : p c with
  | error d =>
    rw [bind_of_error hrun]
    rfl
  | ok r =>
    rw [bind_of_ok hrun]
    rfl

theorem exists_of_map_ok {ε α β : Type} {e : Except ε α} {f : α → β} {b : β}
    (h : e.map f = .ok b) : ∃ a, e = .ok a ∧ f a = b := by
  cases e with
  | error d => cases h
  | ok a => exact ⟨a, rfl, Except.ok.inj h⟩

/-- A program is read where its statements are. -/
theorem map_ofTokens_eq (tokens : List Token) (finish : Span) :
    (ofTokens ⟨tokens, finish⟩).map Program.stmts =
      (Grammar.statements { ahead := tokens, finish }).map Prod.fst := by
  have hprogram : Grammar.program = here >>= fun start => Grammar.statements >>= fun stmts =>
      if stmts.isEmpty then pure ⟨stmts, start⟩
      else behind >>= fun last => pure ⟨stmts, start.merge last⟩ := rfl
  change ((Grammar.program { ahead := tokens, finish }).map Prod.fst).map Program.stmts = _
  rw [hprogram, bind_of_ok (rfl : here { ahead := tokens, finish } = .ok (_, _))]
  cases hrun : Grammar.statements { ahead := tokens, finish } with
  | error d =>
    rw [bind_of_error hrun]
    rfl
  | ok r =>
    rw [bind_of_ok hrun]
    split <;> rfl

theorem exists_statements_of_ofTokens {tokens : List Token} {finish : Span} {p : Program}
    (h : ofTokens ⟨tokens, finish⟩ = .ok p) :
    ∃ c, Grammar.statements { ahead := tokens, finish } = .ok (p.stmts, c) := by
  have hmap := map_ofTokens_eq tokens finish
  rw [h] at hmap
  obtain ⟨⟨stmts, c⟩, hrun, rfl⟩ := exists_of_map_ok hmap.symm
  exact ⟨c, hrun⟩

/-- Two programs with a semicolon between them are a program, of the statements of the first and those of
the second, if the first has a token and does not end with a semicolon of its own. Whatever the second
text is, it is accepted behind the first exactly where it is accepted by itself, and refused for the same
fault otherwise. -/
theorem ofTokens_compose {ts : List Token} {finish : Span} {p : Program}
    (h : ofTokens ⟨ts, finish⟩ = .ok p) (hne : ts ≠ [])
    (hlast : ∀ token ∈ ts.getLast?, token.lexeme ≠ .sign .semicolon)
    (us : List Token) (semicolon finish' : Span) :
    (∀ q finish'', ofTokens ⟨us, finish''⟩ = .ok q →
      ∃ r, ofTokens ⟨ts ++ ⟨.sign .semicolon, semicolon⟩ :: us, finish'⟩ = .ok r ∧
        r.stmts = p.stmts ++ q.stmts) ∧
      (ofTokens ⟨ts ++ ⟨.sign .semicolon, semicolon⟩ :: us, finish'⟩).map Program.stmts =
        (ofTokens ⟨us, finish'⟩).map fun q => p.stmts ++ q.stmts := by
  obtain ⟨c, hfirst⟩ := exists_statements_of_ofTokens h
  have hboth : (ofTokens ⟨ts ++ ⟨.sign .semicolon, semicolon⟩ :: us, finish'⟩).map Program.stmts =
      (ofTokens ⟨us, finish'⟩).map fun q => p.stmts ++ q.stmts :=
    calc (ofTokens ⟨ts ++ ⟨.sign .semicolon, semicolon⟩ :: us, finish'⟩).map Program.stmts
      _ = ((Grammar.statements >>= fun more => pure (p.stmts ++ more))
            ⟨us, finish', semicolon⟩).map Prod.fst := by
        rw [map_ofTokens_eq, ← Grammar.statements_extend hfirst hne hlast semicolon finish' us]
        rfl
      _ = ((Grammar.statements ⟨us, finish', semicolon⟩).map Prod.fst).map (p.stmts ++ ·) :=
        map_bind_pure _ _ _
      _ = ((ofTokens ⟨us, finish'⟩).map Program.stmts).map (p.stmts ++ ·) := by
        rw [map_ofTokens_eq, Grammar.map_statements_eq]
      _ = (ofTokens ⟨us, finish'⟩).map fun q => p.stmts ++ q.stmts := by
        cases ofTokens ⟨us, finish'⟩ <;> rfl
  refine ⟨fun q finish'' hq => ?_, hboth⟩
  -- The second program is read as well where the text ends in another place.
  obtain ⟨c', hsecond⟩ := exists_statements_of_ofTokens hq
  have hagain := Grammar.statements_keeps _ hsecond finish'
  rw [Cursor.extend, List.append_nil] at hagain
  have hmap := map_ofTokens_eq us finish'
  rw [hagain] at hmap
  obtain ⟨q', hq', hstmts⟩ := exists_of_map_ok hmap
  rw [hq'] at hboth
  obtain ⟨r, hr, hstmts'⟩ := exists_of_map_ok hboth
  exact ⟨r, hr, hstmts'.trans (congrArg (p.stmts ++ ·) hstmts)⟩

/-- A conditional that could have gone on with another branch, and a return without a value. -/
theorem ofTokens_compose_conditional :
    let at' (column : Nat) : Span := ⟨⟨1, column⟩, ⟨1, column + 1⟩⟩
    let whole : Span := ⟨⟨1, 1⟩, ⟨1, 5⟩⟩
    let ts : List Token := [⟨.keyword .ifWord, at' 1⟩, ⟨.name "a", at' 2⟩, ⟨.sign .leftBrace, at' 3⟩,
      ⟨.sign .rightBrace, at' 4⟩]
    let us : List Token := [⟨.keyword .returnWord, at' 6⟩]
    let first : Stmt := .conditional
      (.mk (.name (at' 2) "a") (.mk [] ⟨⟨1, 3⟩, ⟨1, 5⟩⟩) .absent whole)
    ofTokens ⟨ts, at' 4⟩ = .ok ⟨[first], whole⟩ ∧
      ofTokens ⟨us, at' 6⟩ = .ok ⟨[.giveBack none (at' 6)], at' 6⟩ ∧
      ∃ r, ofTokens ⟨ts ++ ⟨.sign .semicolon, at' 5⟩ :: us, at' 6⟩ = .ok r ∧
        r.stmts = [first, .giveBack none (at' 6)] := by
  intro at' whole ts us first
  have hfirst : ofTokens ⟨ts, at' 4⟩ = .ok ⟨[first], whole⟩ := by rfl
  have hsecond : ofTokens ⟨us, at' 6⟩ = .ok ⟨[.giveBack none (at' 6)], at' 6⟩ := by rfl
  have hlast : ∀ token ∈ ts.getLast?, token.lexeme ≠ .sign .semicolon := by
    rintro token ⟨⟩ h
    cases h
  have hcompose := ofTokens_compose hfirst (List.cons_ne_nil _ _) hlast us (at' 5) (at' 6)
  exact ⟨hfirst, hsecond, hcompose.1 _ _ hsecond⟩

end Program

end ScriptLang
