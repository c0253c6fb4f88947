import ScriptLang.Proofs.Syntax.Chain
import ScriptLang.Proofs.Syntax.Yields

/-!
# What the parser accepts

Every parser makes a construct of the tokens it moves over, or finds a fault where the tokens stand.
There is one statement for each parser, under the assumption that the parsers of nested constructs are
sound; a nested construct has less to spend, so the assumption is discharged by induction on the
budget.

## Main definitions

* `Nested.Sound`: the parsers of nested constructs make constructs

## Main results

* `Grammar.nested_sound`: they do, with every budget
* `Program.ofTokens_accounted`: an accepted program accounts for all tokens
* `Program.ofTokens_foundIn`: a fault lies where the tokens stand
-/

namespace ScriptLang

open ScriptLang.Parser

/-- The sign that begins a link. -/
def Link.sign : Link → Sign
  | assign => .assign
  | binary op => op.sign
  | call => .leftParen
  | member => .dot

theorem Link.sign_of_ofSign? {s : Sign} {link : Link} (h : Link.ofSign? s = some link) :
    s = link.sign := by
  cases s <;> cases h <;> rfl

/-- The link that is ahead begins with its sign. -/
theorem Link.lexeme?_of_ofLexeme? {next : Option Lexeme} {link : Link}
    (h : Link.ofLexeme? next = some link) : next = some (.sign link.sign) := by
  unfold Link.ofLexeme? at h
  split at h
  · rw [Link.sign_of_ofSign? h]
  · cases h

namespace Nested

/-- The parsers of nested constructs make constructs within a budget. -/
structure Sound (R : Region) (n : Nat) (inner : Nested) : Prop where
  expression (least : BindingPower) :
    Yields R Always (inner.expression least) fun ts e => Derives n ts (.expr e)
  block : Yields R Always inner.block fun ts b => Derives n ts (.block b)
  elseIf : Yields R (·.lexeme? = some (.keyword .ifWord)) inner.elseIf fun ts c =>
    ∀ word, Derives n (⟨.keyword .elseWord, word⟩ :: ts) (.otherwise (.elseIf c))

variable {R : Region} {n k : Nat} {inner : Nested} {before : Cursor → Prop}

/-! ### Functions -/

theorem parameter_yields (earlier : List Ident) :
    Yields R before (parameter earlier) (Ident.IsParameter earlier) := by
  refine parameterName_yields.bind fun ts param hparam hts => ?_
  by_cases htaken : earlier.any (·.name = param.name) = true
  · -- The fault lies at the second of two parameters with one name.
    rw [if_pos htaken]
    refine .failAt rfl ?_
    obtain rfl | ⟨rfl, -⟩ := hparam
    · exact (Region.hasTokens_cons.1 hts).1
    · exact (Region.hasTokens_cons.1 hts).1
  · rw [if_neg htaken]
    refine .pure ?_
    rw [List.append_nil]
    refine ⟨hparam, fun hmem => htaken ?_⟩
    obtain ⟨other, hother, hname⟩ := List.mem_map.1 hmem
    exact List.any_eq_true.2 ⟨other, hother, decide_eq_true hname⟩

section Sound

variable (h : inner.Sound R n)
include h

/-- The word `fx` and a name, if there is one, have been read before. -/
theorem Sound.lambda (start : Span) : Yields R before (inner.lambda start) fun ts f =>
    ∀ name?, Derives n (⟨.keyword .fx, start⟩ :: (nameTokens name? ++ ts)) (.function name? f) := by
  refine (expect_yields .leftParen).bind fun _ opened hopened _ => ?_
  refine (commaList_yields parameter_yields).bind fun _ params hparams _ => ?_
  refine (expect_yields .rightParen).bind fun _ closed hclosed _ => ?_
  refine h.block.bind_pure fun _ body hbody name? => ?_
  subst hopened hclosed
  exact .function hparams hbody

theorem Sound.definition : Yields R (·.lexeme? = some (.keyword .fx)) inner.definition fun ts d =>
    Derives n ts (.function (some d.name) d.function) := by
  refine (take_yields _).bind fun _ start hstart _ => ?_
  refine identifier_yields.bind fun _ name hname _ => ?_
  refine (h.lambda start).bind_pure fun _ f hf => ?_
  subst hstart hname
  exact hf (some name)

/-! ### Operands -/

omit h in
theorem literal_yields {l : Lexeme} {make : Span → Expr}
    (hatom : ∀ span, Token.atom? ⟨l, span⟩ = some (make span)) :
    Yields R (·.lexeme? = some l) (literal make) fun ts e => Derives n ts (.chain n e) := by
  refine (take_yields l).bind_pure fun _ span hspan => ?_
  subst hspan
  exact .atom (hatom span)

theorem Sound.unary (op : UnaryOp) : Yields R (·.lexeme? = some (.sign op.sign)) (inner.unary op)
    fun ts e => Derives n ts (.chain n e) := by
  refine (take_yields _).bind fun _ start hstart _ => ?_
  refine (h.expression BindingPower.unary).bind_pure fun _ operand hoperand => ?_
  subst hstart
  exact .unary hoperand

theorem Sound.group : Yields R (·.lexeme? = some (.sign .leftParen)) inner.group
    fun ts e => Derives n ts (.chain n e) := by
  refine (take_yields _).bind fun _ opened hopened _ => ?_
  refine (h.expression _).bind fun _ e he _ => ?_
  refine (expect_yields .rightParen).bind_pure fun _ closed hclosed => ?_
  subst hopened hclosed
  exact .group he

theorem Sound.operand : Yields R Always inner.operand fun ts e => Derives n ts (.chain n e) := by
  refine .peek fun next => ?_
  split
  -- A token that is an operand by itself.
  iterate 8 exact (literal_yields fun _ => rfl).mono (fun _ hc => hc.2) fun _ _ he => he
  · exact (h.unary .negate).mono (fun _ hc => hc.2) fun _ _ he => he
  · exact (h.unary .not).mono (fun _ hc => hc.2) fun _ _ he => he
  · exact h.group.mono (fun _ hc => hc.2) fun _ _ he => he
  · refine ((take_yields (.keyword .fx)).mono (fun _ hc => hc.2) fun _ _ hs => hs).bind
      fun _ start hstart _ => ?_
    refine (h.lambda start).bind_pure fun _ f hf => ?_
    subst hstart
    exact .lambda (hf none)
  · exact .unexpected "expression"

/-! ### Links

The operand and the links before have been read, and the budget has one for this link. -/

section Links

variable {tl : List Token} {left : Expr} (hleft : Derives (n + 1) tl (.chain k left))
  (htl : R.HasTokens tl)
include hleft htl

theorem Sound.assignment : Yields R (·.lexeme? = some (.sign .assign)) (inner.assignment left)
    fun ts e => Derives (k + 1) (tl ++ ts) (.expr e) := by
  have hspan : R.Has left.span := (hleft.within htl).span
  refine (take_yields _).bind fun _ sign hsign hts => ?_
  subst hsign
  cases left with
  | name span name =>
    let target : Ident := ⟨name, span⟩
    have htarget : Derives (n + 1) tl (.chain k (.name target.span target.name)) := hleft
    exact (h.expression _).bind_pure fun _ value hvalue => .assignName htarget hvalue
  | member span object member =>
    refine (h.expression _).bind_pure fun _ value hvalue => ?_
    exact .assignMember hleft hvalue
  -- Nothing else can be assigned to.
  | _ => exact .failAt rfl (R.merge hspan (Region.hasTokens_cons.1 hts).1)

omit htl in
/-- Every other link leaves a chain that may go on. -/
theorem Sound.follow {link : Link} (hlink : link ≠ .assign) :
    Yields R (·.lexeme? = some (.sign link.sign)) (inner.follow left link)
      fun ts e => Derives n (tl ++ ts) (.chain k e) := by
  cases link with
  | assign => exact absurd rfl hlink
  | binary op =>
    refine (take_yields _).bind fun _ sign hsign _ => ?_
    refine (h.expression _).bind_pure fun _ right hright => ?_
    subst hsign
    exact .binary hleft hright
  | call =>
    refine (take_yields _).bind fun _ opened hopened _ => ?_
    refine (commaList_yields fun _ => h.expression _).bind fun _ args hargs _ => ?_
    refine (expect_yields .rightParen).bind_pure fun _ closed hclosed => ?_
    subst hopened hclosed
    exact .call hleft (.of_separated hargs)
  | member =>
    refine (take_yields _).bind fun _ dot hdot _ => ?_
    refine identifier_yields.bind_pure fun _ member hmember => ?_
    subst hdot hmember
    exact .member hleft

end Links

/-! ### Statements -/

omit h in
theorem semicolon_yields : Yields R before (eat .semicolon) fun ts _ => OptionalSemicolon ts := by
  refine (eat_yields .semicolon).mono (fun _ hc => hc) fun ts _ hts => ?_
  obtain ⟨-, span, rfl⟩ | ⟨-, rfl⟩ := hts
  · exact .present
  · exact .absent

omit h in
theorem terminated_yields {p : Parser Stmt} {made : List Token → Stmt → Prop}
    (hp : Yields R before p made) : Yields R before (terminated p) (Terminated made) := by
  refine hp.bind fun ts s hs _ => ?_
  exact semicolon_yields.bind_pure fun semi _ hsemi => ⟨ts, semi, rfl, hs, hsemi⟩

theorem Sound.otherwise : Yields R before inner.otherwise fun ts branch =>
    Derives n ts (.otherwise branch) := by
  refine (eatWord_yields .elseWord).bind fun _ found hfound _ => ?_
  obtain ⟨rfl, word, rfl⟩ | ⟨rfl, rfl⟩ := hfound
  · refine .peek fun next => ?_
    split
    · exact (h.elseIf.mono (fun _ hc => hc.2) fun _ _ hc => hc).map fun _ c hc => hc word
    · exact h.block.always.map fun _ b hb => .elseBlock hb
  · exact .pure .noElse

theorem Sound.conditional : Yields R (·.lexeme? = some (.keyword .ifWord)) inner.conditional
    fun ts c => Derives n ts (.conditional c) := by
  let parts : Parser (Span × Expr × Block × ElseBranch) := do
    let start ← take
    let condition ← inner.anyExpression
    let thenBlock ← inner.block
    let branch ← inner.otherwise
    return (start, condition, thenBlock, branch)
  -- The parts have a token at least, so the last one read is among them.
  have hparts : Yields R (·.lexeme? = some (.keyword .ifWord)) parts fun ts (r : _ × _ × _ × _) =>
      ∀ s : Span, Derives n ts (.conditional (.mk r.2.1 r.2.2.1 r.2.2.2
        (r.1.merge (lastSpan s ts)))) := by
    refine (take_yields _).bind fun _ start hstart _ => ?_
    refine (h.expression _).bind fun _ condition hcondition _ => ?_
    refine h.block.bind fun _ thenBlock hthen _ => ?_
    refine h.otherwise.bind_pure fun _ branch hbranch s => ?_
    subst hstart
    rw [lastSpan_append, List.singleton_append]
    exact .conditional hcondition hthen hbranch
  have hsplit : inner.conditional = parts >>= fun r => behind >>= fun s => pure
      (.mk r.2.1 r.2.2.1 r.2.2.2 (r.1.merge s)) := by
    simp only [Nested.conditional, parts, bind_assoc, pure_bind]
  rw [hsplit]
  exact hparts.behind fun s _ _ hr => hr s

theorem Sound.method : Yields R before inner.method
    (Terminated fun ts d => Derives n ts (.function (some d.name) d.function)) := by
  refine .peek fun next => ?_
  split
  · refine (h.definition.mono (fun _ hc => hc.2) fun _ _ hd => hd).bind fun ts d hd _ => ?_
    exact semicolon_yields.bind_pure fun semi _ hsemi => ⟨ts, semi, rfl, hd, hsemi⟩
  · exact .unexpected "method declaration"

theorem Sound.classDeclaration : Yields R (·.lexeme? = some (.keyword .clx)) inner.classDeclaration
    fun ts s => Derives n ts (.stmt s) := by
  refine (take_yields _).bind fun _ start hstart _ => ?_
  refine identifier_yields.bind fun _ name hname _ => ?_
  refine (expect_yields .leftBrace).bind fun _ opened hopened _ => ?_
  refine (many_yields _ h.method).bind fun _ methods hmethods _ => ?_
  refine (expect_yields .rightBrace).bind_pure fun _ closed hclosed => ?_
  subst hstart hname hopened hclosed
  exact .declareClass (.of_repeated_methods hmethods)

theorem Sound.giveBack : Yields R (·.lexeme? = some (.keyword .returnWord)) inner.giveBack
    fun ts s => Derives n ts (.stmt s) := by
  refine (take_yields _).bind fun _ word hword _ => ?_
  subst hword
  refine .peek fun next => ?_
  split
  iterate 3 exact .pure .giveNothing
  exact (h.expression _).always.bind_pure fun _ value hvalue => .giveBack hvalue

omit h in
theorem load_yields : Yields R (·.lexeme? = some (.keyword .load)) load
    fun ts s => Derives n ts (.stmt s) := by
  refine (take_yields _).bind fun _ word hword htword => ?_
  refine (expect_yields .leftParen).bind fun _ opened hopened _ => ?_
  have hpath (earlier : List ModulePath) : Yields R Always modulePath (ModulePath.IsPath earlier) :=
    modulePath_yields earlier
  refine (commaList_yields hpath).bind fun _ paths hpaths _ => ?_
  refine (expect_yields .rightParen).bind fun _ closed hclosed htclosed => ?_
  subst hword hopened hclosed
  by_cases hempty : paths.isEmpty = true
  · simp only [if_pos hempty]
    exact .failAt rfl
      (R.merge (Region.hasTokens_cons.1 htword).1 (Region.hasTokens_cons.1 htclosed).1)
  · simp only [if_neg hempty]
    refine .pure (.load hpaths ?_)
    rintro rfl
    exact hempty rfl

theorem Sound.statement : Yields R Always inner.statement fun ts s => Derives n ts (.stmt s) := by
  refine .of_branch fun c _ => ?_
  have hnext {t : Token} {rest : List Token} (hahead : c.ahead = t :: rest) :
      c.lexeme? = some t.lexeme := by
    rw [Cursor.lexeme?, hahead]
    rfl
  unfold Nested.statement
  split
  · next hahead =>
    refine ⟨_, _, hnext hahead, rfl, h.definition.map fun _ d hd => ?_⟩
    obtain ⟨name, f⟩ := d
    exact .define hd
  · next hahead => exact ⟨_, _, hnext hahead, rfl, h.classDeclaration⟩
  · next hahead =>
    exact ⟨_, _, hnext hahead, rfl, h.conditional.map fun _ d hd => .runConditional hd⟩
  · next hahead => exact ⟨_, _, hnext hahead, rfl, h.giveBack⟩
  · next hahead => exact ⟨_, _, hnext hahead, rfl, load_yields⟩
  · exact ⟨_, _, trivial, rfl, h.block.map fun _ b hb => .runBlock hb⟩
  · next span rest hahead =>
    -- A package is declared where it cannot be, and the word for it is ahead.
    refine ⟨_, (·.span = span), ?_, rfl, fun c hc hspan => ?_⟩
    · simp only [Cursor.span, hahead]
    · have hplace := hc.span
      rw [hspan] at hplace
      exact Fault.at_foundIn rfl hplace
  · exact ⟨_, _, trivial, rfl, (h.expression _).map fun _ e he => .evaluate he⟩

theorem Sound.braced : Yields R before inner.braced fun ts b => Derives (n + 1) ts (.block b) := by
  refine (expect_yields .leftBrace).bind fun _ opened hopened _ => ?_
  refine (many_yields _ (terminated_yields h.statement)).bind fun _ stmts hstmts _ => ?_
  refine (expect_yields .rightBrace).bind_pure fun _ closed hclosed => ?_
  subst hopened hclosed
  exact .block (.of_repeated_stmts hstmts)

end Sound

end Nested

/-! ### Budgets -/

namespace Grammar

variable {R : Region} {before : Cursor → Prop}

theorem tooDeep_yields {α : Type} {made : List Token → α → Prop} :
    Yields R before tooDeep made :=
  fun _ hc _ => Fault.at_foundIn rfl hc.span

/-- A chain ends where nothing goes on with it. The induction is on what it has to spend. -/
theorem chain_leaves (b : Nat) (least : BindingPower) (left : Expr) :
    (chain b least left).Leaves (Ends least ·.lexeme?) := by
  induction b generalizing left with
  | zero =>
    intro c e c' h
    rw [chain_zero_eq] at h
    split at h
    · next link hlink =>
      split at h
      · next hless =>
        cases h
        intro link' hlink'
        cases hlink.symm.trans hlink'
        exact hless
      · cases h
    · next hlink =>
      cases h
      exact .of_ofLexeme?_eq_none hlink
  | succ b ih =>
    intro c e c' h
    rw [chain_succ_eq] at h
    split at h
    · next link hlink =>
      split at h
      · next hless =>
        cases h
        intro link' hlink'
        cases hlink.symm.trans hlink'
        exact hless
      · exact Leaves.bind ih h
    · next hlink =>
      cases h
      exact .of_ofLexeme?_eq_none hlink

theorem expression_leaves (b : Nat) (least : BindingPower) :
    (expression b least).Leaves (Ends least ·.lexeme?) := by
  cases b with
  | zero =>
    intro c e c' h
    cases h
  | succ b => exact .bind fun left => chain_leaves b least left

/-- An assignment has any expression for its value, and no link is left after it. -/
theorem assignment_leaves (b : Nat) (left : Expr) :
    ((nested b).assignment left).Leaves (Ends BindingPower.assignment ·.lexeme?) := by
  have hvalue := expression_leaves b BindingPower.assignment
  refine .bind fun sign => ?_
  cases left with
  | name => exact hvalue.bind_pure
  | member => exact hvalue.bind_pure
  | _ => exact .failAt

/-- A chain may end where it is. -/
theorem pure_yields {b k : Nat} {left : Expr} {tl : List Token}
    (hleft : Derives b tl (.chain k left)) :
    Yields R before (pure left) fun ts e => Derives (k + 1) (tl ++ ts) (.expr e) := by
  refine .pure ?_
  rw [List.append_nil]
  exact .expr hleft

/-- A chain goes on as far as it can. The induction is on what it has to spend. -/
theorem chain_yields {b k : Nat} {least : BindingPower} {left : Expr} {tl : List Token}
    (hinner : ∀ m < b, (nested m).Sound R m) (hleft : Derives b tl (.chain k left))
    (htl : R.HasTokens tl) : Yields R Always (chain b least left)
      fun ts e => Derives (k + 1) (tl ++ ts) (.expr e) := by
  induction b generalizing left tl with
  | zero =>
    refine .of_branch fun c _ => ?_
    rw [chain_zero_eq]
    split
    · -- A link is ahead: it belongs to a chain further out, or is one too many.
      split
      · exact ⟨_, Always, trivial, rfl, pure_yields hleft⟩
      · exact ⟨_, Always, trivial, rfl, tooDeep_yields⟩
    · exact ⟨_, Always, trivial, rfl, pure_yields hleft⟩
  | succ b ih =>
    have hsound := hinner b (Nat.lt_succ_self b)
    refine .of_branch fun c _ => ?_
    rw [chain_succ_eq]
    split
    · next link hlink =>
      split
      · exact ⟨_, Always, trivial, rfl, pure_yields hleft⟩
      · refine ⟨_, (·.lexeme? = some (.sign link.sign)), Link.lexeme?_of_ofLexeme? hlink, rfl, ?_⟩
        by_cases hassign : link = .assign
        · -- No link is left after an assignment, so the chain ends with it.
          subst hassign
          refine (hsound.assignment hleft htl).bind_of_leaves (assignment_leaves b left)
            fun ts e he _ => ?_
          refine .of_branch fun c' hc' => ⟨pure e, Always, trivial, chain_of_ends ?_ e, .pure ?_⟩
          · intro link hlink
            exact absurd (hc' link hlink) (Nat.not_lt.2 link.assignment_le_power)
          · rwa [List.append_nil]
        · -- With the link the chain is longer, and goes on with one less to spend.
          refine (hsound.follow hleft hassign).bind fun ts e he hts => ?_
          have hrest := ih (fun m hm => hinner m (Nat.lt_succ_of_lt hm)) he
            (Region.hasTokens_append.2 ⟨htl, hts⟩)
          refine hrest.mono (fun _ h => h) fun ts' e' he' => ?_
          rwa [List.append_assoc] at he'
    · exact ⟨_, Always, trivial, rfl, pure_yields hleft⟩

/-- The parsers of nested constructs make constructs, with every budget. What is nested in them has
less to spend, so the induction is on the budget. -/
theorem nested_sound (n : Nat) : (nested n).Sound R n := by
  induction n using Nat.strongRecOn with
  | ind n ih =>
    cases n with
    | zero => exact ⟨fun _ => tooDeep_yields, tooDeep_yields, tooDeep_yields⟩
    | succ n =>
      have hinner := ih n (Nat.lt_succ_self n)
      refine ⟨fun least => ?_, hinner.braced, ?_⟩
      · refine hinner.operand.bind fun ts left hleft hts => ?_
        exact chain_yields (fun m hm => ih m (Nat.lt_succ_of_lt hm)) hleft hts
      · exact hinner.conditional.mono (fun _ h => h) fun _ c hc word => .elseIf hc

theorem topLevel_yields {inner : Nested} (h : inner.Sound R nestingLimit) :
    Yields R Always inner.topLevel TopLevel := by
  refine .peek fun next => ?_
  split
  · refine ((take_yields (.keyword .bag)).mono (fun _ hc => hc.2) fun _ _ hs => hs).bind
      fun _ word hword _ => ?_
    refine identifier_yields.bind_pure fun _ name hname => ?_
    subst hword hname
    exact .package
  · exact h.statement.mono (fun _ _ => trivial) fun _ _ hs => .stmt hs

theorem program_yields : Yields R Always program fun ts p => p.Accounted ts := by
  have hitem := Nested.terminated_yields (topLevel_yields (nested_sound (R := R) nestingLimit))
  refine here_yields.bind fun _ start hstart _ => ?_
  subst hstart
  refine (many_yields _ hitem).bind fun ts stmts hstmts _ => ?_
  -- The two cases differ in the span of the program only.
  by_cases hempty : stmts.isEmpty = true
  · simp only [if_pos hempty]
    refine .pure ?_
    rw [List.append_nil]
    exact hstmts
  · simp only [if_neg hempty]
    refine behind_yields.bind_pure fun _ s hs => ?_
    subst hs
    rw [List.append_nil]
    exact hstmts

/-- A program ends where the text ends. -/
theorem program_stops {c c' : Cursor} {p : Program} (h : program c = .ok (p, c')) :
    c'.ahead = [] := by
  unfold program at h
  rw [bind_of_ok (rfl : here c = .ok (c.span, c))] at h
  cases hmany : many (fun c => !c.atEnd) (Nested.terminated (nested nestingLimit).topLevel) c with
  | error d =>
    rw [bind_of_error hmany] at h
    cases h
  | ok r =>
    have hstops := many_stops hmany
    rw [bind_of_ok hmany] at h
    have hlast : c' = r.2 := by
      split at h <;> cases h <;> rfl
    simpa [hlast, Cursor.atEnd] using hstops

end Grammar

namespace Program

/-- An accepted program leaves no token. -/
theorem exists_run_of_ofTokens {stream : TokenStream} {p : Program} (h : ofTokens stream = .ok p) :
    ∃ c, Grammar.program.run { ahead := stream.tokens, finish := stream.finish } = .ok (p, c) ∧
      c.ahead = [] := by
  unfold ofTokens at h
  cases hrun : Grammar.program.run { ahead := stream.tokens, finish := stream.finish } with
  | error d =>
    rw [hrun] at h
    cases h
  | ok r =>
    rw [hrun] at h
    cases h
    exact ⟨r.2, rfl, Grammar.program_stops hrun⟩

/-- A program accounts for every token of the text that it was read from. -/
theorem ofTokens_accounted {stream : TokenStream} {p : Program} (h : ofTokens stream = .ok p) :
    p.Accounted stream.tokens := by
  have hprogram := Grammar.program_yields
    ⟨stream.tokens, stream.finish, Span.point Position.start⟩ (Cursor.within_everywhere _) trivial
  obtain ⟨c, hrun, hend⟩ := exists_run_of_ofTokens h
  change Grammar.program ⟨stream.tokens, stream.finish, Span.point Position.start⟩ = _ at hrun
  rw [hrun] at hprogram
  obtain ⟨ts, hpass, hp⟩ := hprogram
  have hahead := hpass.ahead
  rw [hend, List.append_nil] at hahead
  change stream.tokens = ts at hahead
  rwa [hahead]

/-- What is wrong with the tokens is found by the parser of programs. -/
theorem run_of_ofTokens_error {stream : TokenStream} {d : Diagnostic} (h : ofTokens stream = .error d) :
    Grammar.program { ahead := stream.tokens, finish := stream.finish } = .error d := by
  unfold ofTokens at h
  cases hrun : Grammar.program.run { ahead := stream.tokens, finish := stream.finish } with
  | error d' =>
    rw [hrun] at h
    cases h
    exact hrun
  | ok r =>
    rw [hrun] at h
    cases h

/-- Where the tokens and the end of the text stand, there lies the fault of a text that is no
program. -/
theorem ofTokens_foundIn {R : Region} {stream : TokenStream} {d : Diagnostic}
    (h : ofTokens stream = .error d) (htokens : R.HasTokens stream.tokens)
    (hfinish : R.Has stream.finish) : d.FoundIn R := by
  have hprogram := Grammar.program_yields (R := R)
    ⟨stream.tokens, stream.finish, Span.point Position.start⟩ ⟨htokens, hfinish⟩ trivial
  rwa [run_of_ofTokens_error h] at hprogram

end Program

end ScriptLang
