import ScriptLang.Proofs.Syntax.Nesting
import ScriptLang.Proofs.Syntax.Reads
import ScriptLang.Proofs.Syntax.Shape
import ScriptLang.Syntax.Parser

/-!
# Reading chains

An expression is read as an operand with a chain of links, although it is written as a tree. The
tree of a chain is its left spine: reading the left side of an expression leaves the parser inside
the same chain, with as many links less to spare as the left side has.

## Main definitions

* `Ends`: what cannot go on a chain that asks for a power
* `Expr.Legible`: an expression is read as it is written, up to the place where its chain could go
  on

## Main results

* `Expr.Legible.place`, `Expr.Legible.expression`: such an expression is read in every place
* `Expr.legible_binary`, `Expr.legible_call`, `Expr.legible_member`, `Expr.legible_assignName`,
  `Expr.legible_assignMember`: a link makes a legible expression of legible parts
-/

namespace ScriptLang

open ScriptLang.Parser

theorem BinaryOp.power_lt_unary (op : BinaryOp) : op.power < BindingPower.unary := by
  cases op <;> decide

theorem BinaryOp.assignment_lt_power (op : BinaryOp) : BindingPower.assignment < op.power := by
  cases op <;> decide

theorem BinaryOp.ofSign?_sign (op : BinaryOp) : Link.ofSign? op.sign = some (.binary op) := by
  cases op <;> rfl

/-- No link binds more tightly than a member access. -/
theorem Link.power_lt (link : Link) : link.power < BindingPower.member + 1 := by
  cases link with
  | binary op =>
    have hunary : BindingPower.unary < BindingPower.member + 1 := by decide
    exact Nat.lt_trans op.power_lt_unary hunary
  | _ => decide

/-- No link binds more loosely than an assignment. -/
theorem Link.assignment_le_power (link : Link) : BindingPower.assignment ≤ link.power := by
  cases link with
  | binary op => exact Nat.le_of_lt op.assignment_lt_power
  | _ => decide

/-- What comes next is no link that binds as tightly as the power. -/
def Ends (least : BindingPower) (next : Option Lexeme) : Prop :=
  ∀ link, Link.ofLexeme? next = some link → link.power < least

namespace Ends

variable {least least' : BindingPower} {next : Option Lexeme}

theorem mono (h : Ends least next) (hle : least ≤ least') : Ends least' next :=
  fun link hlink => Nat.lt_of_lt_of_le (h link hlink) hle

theorem of_ofLexeme?_eq_none (h : Link.ofLexeme? next = none) : Ends least next :=
  fun link hlink => by rw [h] at hlink; cases hlink

theorem of_sign {s : Sign} {link : Link} (hlink : Link.ofSign? s = some link)
    (hless : link.power < least) : Ends least (some (.sign s)) := by
  intro link' hlink'
  cases hlink.symm.trans hlink'
  exact hless

end Ends

namespace Grammar

variable {budget : Nat} {least : BindingPower}

/-- An operand and the chain that it begins. -/
def spine (budget : Nat) (least : BindingPower) : Parser Expr :=
  (nested budget).operand >>= chain budget least

/-- Without a budget a chain can only end. -/
theorem chain_zero_eq (left : Expr) (c : Cursor) :
    chain 0 least left c =
      match Link.ofLexeme? c.lexeme? with
      | some link => if link.power < least then .ok (left, c) else tooDeep c
      | none => .ok (left, c) := by
  rw [chain]
  change (match Link.ofLexeme? c.lexeme? with
    | some link => if link.power < least then pure left else tooDeep
    | none => pure left : Parser Expr) c = _
  cases Link.ofLexeme? c.lexeme? with
  | none => rfl
  | some link =>
    dsimp only
    split <;> rfl

/-- Each link takes one from the budget. -/
theorem chain_succ_eq (left : Expr) (c : Cursor) :
    chain (budget + 1) least left c =
      match Link.ofLexeme? c.lexeme? with
      | some link =>
        if link.power < least then .ok (left, c)
        else ((nested budget).follow left link >>= chain budget least) c
      | none => .ok (left, c) := by
  rw [chain]
  change (match Link.ofLexeme? c.lexeme? with
    | some link =>
      if link.power < least then pure left
      else (nested budget).follow left link >>= chain budget least
    | none => pure left : Parser Expr) c = _
  cases Link.ofLexeme? c.lexeme? with
  | none => rfl
  | some link =>
    dsimp only
    split <;> rfl

/-- A chain ends before a link that is too loose, and before anything that is no link. -/
theorem chain_of_ends {c : Cursor} (h : Ends least c.lexeme?) (left : Expr) :
    chain budget least left c = .ok (left, c) := by
  cases hlink : Link.ofLexeme? c.lexeme? with
  | none => cases budget <;> simp [chain_zero_eq, chain_succ_eq, hlink]
  | some link =>
    have hless : link.power < least := h link hlink
    cases budget <;> simp [chain_zero_eq, chain_succ_eq, hlink, hless]

/-- A chain ends where nothing goes on with it. -/
theorem chain_reads {left : Expr} {made : Expr → Prop} (hleft : made left) :
    Reads True (chain budget least left) [] (Ends least) made :=
  reads_nil fun _ hc => ⟨left, hleft, chain_of_ends hc left⟩

/-- A chain goes on with a link that binds tightly enough, if there is a budget for it. -/
theorem chain_steps {left : Expr} {link : Link} {s : Sign} {ls : List Lexeme} {n : Nat}
    {follow : Option Lexeme → Prop} {made : Expr → Prop} (hs : Link.ofSign? s = some link)
    (hpower : least ≤ link.power)
    (hfollow : ∀ budget, Reads (n ≤ budget) ((nested budget).follow left link) (.sign s :: ls)
      follow made) :
    Steps (1 + n ≤ budget) (chain budget least left) (.sign s :: ls) follow made
      (chain (budget - 1) least) := by
  have hnot : ¬link.power < least := Nat.not_lt.2 hpower
  have hahead (tokens rest : List Token) (finish previous : Span)
      (htokens : tokens.map Token.lexeme = .sign s :: ls) :
      Link.ofLexeme? (Cursor.mk (tokens ++ rest) finish previous).lexeme? = some link := by
    rw [lexeme?_append, htokens]
    exact hs
  cases budget with
  | zero =>
    -- The link binds tightly enough, so the chain cannot end, and there is nothing to spend on it.
    intro tokens rest finish previous htokens _
    refine ⟨fun henough => by omega, fun _ =>
      ⟨Fault.nestingTooDeep.at (Cursor.mk (tokens ++ rest) finish previous).span, ?_⟩⟩
    rw [chain_zero_eq, hahead tokens rest finish previous htokens]
    exact if_neg hnot
  | succ budget =>
    refine Steps.mono (Steps.congr ((hfollow budget).steps (chain budget least)) ?_) ?_ rfl
      fun _ hnext => hnext
    · intro tokens rest finish previous htokens
      rw [chain_succ_eq, hahead tokens rest finish previous htokens]
      exact if_neg hnot
    · omega

/-- Without a budget there is no expression. -/
theorem tooDeep_reads {α : Type} {enough : Prop} {ls : List Lexeme} {follow : Option Lexeme → Prop}
    {made : α → Prop} (h : ¬enough) : Reads enough tooDeep ls follow made :=
  fun tokens rest finish previous _ _ => ⟨fun henough => absurd henough h, fun _ =>
    ⟨Fault.nestingTooDeep.at (Cursor.mk (tokens ++ rest) finish previous).span, rfl⟩⟩

/-- An expression is the chain that an operand begins, with one less to spend on it. -/
theorem expression_reads {ls : List Lexeme} {n links : Nat} {follow : Option Lexeme → Prop}
    {made : Expr → Prop}
    (hspine : ∀ budget, Steps (n ≤ budget) (spine budget least) ls follow made
      (chain (budget - links) least))
    (hends : ∀ next, Ends least next → follow next) :
    Reads (n + 1 ≤ budget) (expression budget least) ls (Ends least) made := by
  cases budget with
  | zero => exact tooDeep_reads (by omega)
  | succ budget =>
    have hboth : n + 1 ≤ budget + 1 ↔ n ≤ budget ∧ True := by simp
    have hread := (hspine budget).trans hboth (fun a ha => chain_reads ha) hends
    exact hread.mono Iff.rfl (List.append_nil ls) fun _ hnext => hnext

end Grammar

namespace Expr

/-- What can follow an expression outside of parentheses is what cannot go on its last part. This is
the power that the last part asks for, if nothing ends it. -/
def reach : Expr → BindingPower
  | assignName _ _ _ | assignMember _ _ _ _ => BindingPower.assignment
  | binary _ _ op _ => op.power + 1
  | unary _ _ _ => BindingPower.unary
  | _ => BindingPower.member + 1

theorem power_le_reach (e : Expr) : e.power ≤ e.reach := by
  have hcall : BindingPower.call ≤ BindingPower.member + 1 := by decide
  cases e with
  | binary _ _ op _ => exact Nat.le_succ op.power
  | call => exact hcall
  | member => exact Nat.le_succ BindingPower.member
  | _ => exact Nat.le_refl _

/-- A binary operator on the right of an expression does not go on its last part, if the expression
binds as tightly as the operator. -/
theorem binary_lt_reach {e : Expr} {op : BinaryOp} (h : op.power ≤ e.power) :
    op.power < e.reach := by
  have hassignment : ¬op.power ≤ BindingPower.assignment := Nat.not_le.2 op.assignment_lt_power
  have hmember : op.power < BindingPower.member + 1 := Link.power_lt (.binary op)
  cases e with
  | binary _ _ op' _ => exact Nat.lt_succ_of_le h
  | unary => exact op.power_lt_unary
  | assignName => exact absurd h hassignment
  | assignMember => exact absurd h hassignment
  | _ => exact hmember

/-- No link at all goes on the last part of an expression that binds as tightly as a call: it has
none. -/
theorem lt_reach_of_call_le {e : Expr} (h : BindingPower.call ≤ e.power) (link : Link) :
    link.power < e.reach := by
  cases e with
  | binary _ _ op _ =>
    have hless : op.power < BindingPower.call := Nat.lt_succ_of_lt op.power_lt_unary
    exact absurd hless (Nat.not_lt.2 h)
  | unary => exact absurd h (by decide : ¬BindingPower.call ≤ BindingPower.unary)
  | assignName => exact absurd h (by decide : ¬BindingPower.call ≤ BindingPower.assignment)
  | assignMember => exact absurd h (by decide : ¬BindingPower.call ≤ BindingPower.assignment)
  | _ => exact link.power_lt

/-- Where the lexemes of the expression are ahead, an operand and the chain that it begins are read
as this expression, and the chain may go on. No chain asks for more than the power of a call. -/
def Legible (e : Expr) : Prop :=
  ∀ (budget : Nat) (least : BindingPower), least ≤ BindingPower.call → least ≤ e.power →
    Steps (e.cost ≤ budget) (Grammar.spine budget least) e.lexemes (Ends e.reach)
      (·.shape = e.shape) (Grammar.chain (budget - e.links) least)

theorem assignment_le_power (e : Expr) : BindingPower.assignment ≤ e.power := by
  cases e with
  | binary _ _ op _ => exact Nat.le_of_lt op.assignment_lt_power
  | _ => exact Nat.succ_le_succ (Nat.zero_le _)

namespace Legible

variable {e : Expr} {budget : Nat} {least : BindingPower}

/-- An expression that nothing asks to bind tightly is read without parentheses. -/
theorem anyExpression (h : e.Legible) (budget : Nat) :
    Reads (e.cost + 1 ≤ budget) (Grammar.nested budget).anyExpression e.lexemes
      (Ends BindingPower.assignment) (·.shape = e.shape) :=
  Grammar.expression_reads
    (fun budget => h budget BindingPower.assignment (by decide) e.assignment_le_power)
    fun _ hnext => hnext.mono (Nat.le_trans e.assignment_le_power e.power_le_reach)

/-- Between parentheses any expression is an operand. -/
theorem group (h : e.Legible) (budget : Nat) :
    Reads (e.cost + 1 ≤ budget) (Grammar.nested budget).operand
      (.sign .leftParen :: e.lexemes ++ [.sign .rightParen]) Any (·.shape = e.shape) := by
  have hclose : Ends BindingPower.assignment (some (.sign .rightParen)) :=
    .of_ofLexeme?_eq_none rfl
  refine peek_steps ((take_reads _).andThen (fun start _ => ?_) fun _ _ => trivial)
  refine (h.anyExpression budget).bindFree (fun a ha => ?_) fun _ _ => hclose
  refine (expect_reads .rightParen).bind_pure fun close _ => ?_
  rw [shape_withSpan, ha]

/-- In a place that asks for a power the expression is read with the parentheses that it needs. -/
theorem place (h : e.Legible) {asked : BindingPower} (hcall : least ≤ BindingPower.call)
    (hleast : least ≤ asked) :
    Steps (costInPlace asked e.power e.cost ≤ budget) (Grammar.spine budget least)
      (Expr.place asked e.power e.lexemes) (fun next => asked ≤ e.power → Ends e.reach next)
      (·.shape = e.shape) (Grammar.chain (budget - linksInPlace asked e.power e.links) least) := by
  rw [costInPlace, linksInPlace, Expr.place]
  by_cases hparens : e.power < asked
  · -- Between parentheses the expression is an operand, and the chain is about to begin.
    rw [if_pos hparens, if_pos hparens, if_pos hparens]
    exact ((h.group budget).steps _).mono Iff.rfl rfl fun _ _ => trivial
  · -- Without them its own chain is the one that goes on.
    have hasked : asked ≤ e.power := Nat.not_lt.1 hparens
    rw [if_neg hparens, if_neg hparens, if_neg hparens]
    have hread := h budget least hcall (Nat.le_trans hleast hasked)
    exact hread.mono Iff.rfl rfl fun _ hnext => hnext hasked

/-- A nested expression is read in every place. -/
theorem expression (h : e.Legible) (budget : Nat) {asked : BindingPower}
    (hcall : asked ≤ BindingPower.call) :
    Reads (costInPlace asked e.power e.cost + 1 ≤ budget) (Grammar.expression budget asked)
      (Expr.place asked e.power e.lexemes) (Ends asked) (·.shape = e.shape) :=
  Grammar.expression_reads (fun _ => h.place hcall (Nat.le_refl asked))
    fun _ hnext hasked => hnext.mono (Nat.le_trans hasked e.power_le_reach)

/-- After the left side of a link the parser stands before the link, in the chain that it belongs
to. -/
theorem link (h : e.Legible) (link : Link) (budget : Nat) {asked : BindingPower}
    (hcall : least ≤ BindingPower.call) (hleast : least ≤ asked) {s : Sign}
    (hs : Link.ofSign? s = some link) (hpower : least ≤ link.power)
    (hreach : asked ≤ e.power → link.power < e.reach) {n : Nat} {ls : List Lexeme}
    {follow : Option Lexeme → Prop} {made : Expr → Prop}
    (hfollow : ∀ a : Expr, a.shape = e.shape → ∀ budget,
      Reads (n ≤ budget) ((Grammar.nested budget).follow a link) (.sign s :: ls) follow made) :
    Steps (max (costInPlace asked e.power e.cost)
        (linksInPlace asked e.power e.links + 1 + n) ≤ budget)
      (Grammar.spine budget least) (Expr.place asked e.power e.lexemes ++ .sign s :: ls) follow made
      (Grammar.chain (budget - (linksInPlace asked e.power e.links + 1)) least) := by
  -- The left side is read with the whole budget, the link with what its links have left of it.
  refine (h.place hcall hleast).trans Nat.max_le (fun a ha => ?_) fun _ _ hasked => ?_
  · exact (Grammar.chain_steps hs hpower (hfollow a ha)).mono (by omega) rfl fun _ hnext => hnext
  · exact .of_sign hs (hreach hasked)

end Legible

/-! ### One lemma for each form -/

/-- What is a single operand is legible. -/
theorem legible_of_operand {e : Expr} (hlinks : e.links = 0)
    (h : ∀ budget, Reads (e.cost ≤ budget) (Grammar.nested budget).operand e.lexemes (Ends e.reach)
      (·.shape = e.shape)) : e.Legible := by
  intro budget least _ _
  rw [hlinks]
  exact (h budget).steps _

/-- So is what is a single token. -/
theorem legible_of_token {e : Expr} {l : Lexeme} (hlinks : e.links = 0) (hcost : e.cost = 0)
    (hlexemes : e.lexemes = [l])
    (h : ∀ (inner : Nested) span rest finish previous, ∃ a : Expr, a.shape = e.shape ∧
      inner.operand ⟨⟨l, span⟩ :: rest, finish, previous⟩ = .ok (a, ⟨rest, finish, span⟩)) :
    e.Legible := by
  refine legible_of_operand hlinks fun budget => ?_
  rw [hlexemes, hcost]
  exact (reads_token (h (Grammar.nested budget))).mono (by simp) rfl fun _ _ => trivial

theorem legible_name (span : Span) (n : String) : (name span n).Legible :=
  legible_of_token rfl rfl rfl fun _ span _ _ _ => ⟨.name span n, rfl, rfl⟩

theorem legible_unary (span : Span) (op : UnaryOp) {e : Expr} (h : e.Legible) :
    (unary span op e).Legible := by
  refine legible_of_operand rfl fun budget => ?_
  have hread : Reads ((unary span op e).cost ≤ budget) ((Grammar.nested budget).unary op)
      (unary span op e).lexemes (Ends BindingPower.unary) (·.shape = (unary span op e).shape) := by
    have hcall : BindingPower.unary ≤ BindingPower.call := by decide
    refine (take_reads _).andThen (fun start _ => ?_) fun _ _ => trivial
    refine (h.expression budget hcall).bind_pure fun a ha => ?_
    rw [shape, shape, ha]
  cases op with
  | negate => exact peek_steps hread
  | not => exact peek_steps hread

theorem legible_binary (span : Span) (op : BinaryOp) {l r : Expr} (hl : l.Legible)
    (hr : r.Legible) : (binary span l op r).Legible := by
  intro budget least hcall hleast
  have hright : op.power + 1 ≤ BindingPower.call :=
    Nat.le_trans op.power_lt_unary (Nat.le_succ BindingPower.unary)
  -- The right side has to bind tighter, so that operators of one power group to the left.
  refine hl.link (.binary op) budget hcall hleast op.ofSign?_sign hleast binary_lt_reach
    fun a ha budget => ?_
  refine (take_reads _).andThen (fun _ _ => ?_) fun _ _ => trivial
  refine (hr.expression budget hright).bind_pure fun a' ha' => ?_
  rw [shape, shape, ha, ha']

theorem legible_call (span : Span) {f : Expr} {args : List Expr} (hf : f.Legible)
    (hargs : ∀ e ∈ args, e.Legible) : (call span f args).Legible := by
  intro budget least hcall hleast
  have hends (next : Option Lexeme) (hnext : EndsItem next) :
      Ends BindingPower.assignment next := by
    rcases hnext with rfl | rfl
    · exact .of_ofLexeme?_eq_none rfl
    · exact .of_ofLexeme?_eq_none rfl
  have hlist (budget : Nat) : Reads (costOfArgs args ≤ budget)
      (commaList fun _ => (Grammar.nested budget).anyExpression)
      (commaSeparated (lexemesOfArgs args)) (· = some (.sign .rightParen))
      (·.map shape = args.map shape) := by
    rw [lexemesOfArgs_eq_map, costOfArgs_le_iff]
    refine commaList_reads (fun e _ => ?_) fun done e later hall _ _ => ?_
    · obtain ⟨l, rest, hl, hparen, -⟩ := e.opens.exists_cons
      exact ⟨l, rest, hl, hparen⟩
    · have he : e.Legible := hargs e (by simp [hall])
      exact (he.anyExpression budget).mono Iff.rfl rfl hends
  -- The parenthesis that opens the arguments is the sign of the link.
  refine hf.link .call budget hcall hleast rfl hleast (lt_reach_of_call_le · .call)
    fun a ha budget => ?_
  refine (take_reads _).andThen (fun _ _ => ?_) fun _ _ => trivial
  refine (hlist budget).bindFree (fun as has => ?_) fun _ _ => rfl
  refine Reads.before ((expect_reads .rightParen).bind_pure fun _ _ => ?_) _
  rw [shape, shape, ha, shapeOfArgs_eq_map, shapeOfArgs_eq_map, has]

theorem legible_member (span : Span) (member : Ident) {e : Expr} (h : e.Legible) :
    (Expr.member span e member).Legible := by
  intro budget least hcall hleast
  have hfollow (a : Expr) (ha : a.shape = e.shape) (budget : Nat) :
      Reads (0 ≤ budget) ((Grammar.nested budget).follow a .member) [.sign .dot, .name member.name]
        (Ends (BindingPower.member + 1)) (·.shape = (Expr.member span e member).shape) := by
    have hzero : 0 ≤ budget ↔ True := by simp
    rw [hzero]
    refine (take_reads _).andThen (fun _ _ => ?_) fun _ _ => trivial
    refine Reads.before ((identifier_reads _).bind_pure fun i hi => ?_) _
    rw [shape, shape, ha, Ident.shape, Ident.shape, hi]
  exact h.link .member budget hcall hcall rfl hleast (lt_reach_of_call_le · .member) hfollow

theorem legible_assignName (span : Span) (target : Ident) {value : Expr} (h : value.Legible) :
    (assignName span target value).Legible := by
  intro budget least hcall hleast
  have hfollow (a : Expr) (ha : a.shape = (name target.span target.name).shape) (budget : Nat) :
      Reads (value.cost + 1 ≤ budget) ((Grammar.nested budget).follow a .assign)
        (.sign .assign :: value.lexemes) (Ends BindingPower.assignment)
        (·.shape = (assignName span target value).shape) := by
    obtain ⟨s, rfl⟩ := eq_name_of_shape_eq ha
    refine (take_reads _).andThen (fun _ _ => ?_) fun _ _ => trivial
    refine (h.anyExpression budget).bind_pure fun v hv => ?_
    rw [shape, shape, hv]
    rfl
  -- The target is read as a name, before the parser sees that something is assigned to it.
  have hread := (legible_name target.span target.name).link .assign budget hcall hleast rfl hleast
    (fun _ => Link.power_lt .assign) hfollow
  refine hread.mono ?_ rfl fun _ hnext => hnext
  change max 0 (1 + (value.cost + 1)) ≤ budget ↔ 1 + (value.cost + 1) ≤ budget
  rw [Nat.zero_max]

theorem legible_assignMember (span : Span) (member : Ident) {e value : Expr} (he : e.Legible)
    (hvalue : value.Legible) : (assignMember span e member value).Legible := by
  intro budget least hcall hleast
  have hfollow (a : Expr) (ha : a.shape = (Expr.member span e member).shape) (budget : Nat) :
      Reads (value.cost + 1 ≤ budget) ((Grammar.nested budget).follow a .assign)
        (.sign .assign :: value.lexemes) (Ends BindingPower.assignment)
        (·.shape = (assignMember span e member value).shape) := by
    obtain ⟨s, object, m, rfl, hobject, hm⟩ := eq_member_of_shape_eq ha
    refine (take_reads _).andThen (fun _ _ => ?_) fun _ _ => trivial
    refine (hvalue.anyExpression budget).bind_pure fun v hv => ?_
    rw [shape, shape, hv, hobject, hm]
  -- Here the target is read as a member, which has a link of its own.
  have hread := (legible_member span member he).link .assign budget hcall hleast rfl hleast
    (fun _ => Link.power_lt .assign) hfollow
  refine hread.mono ?_ ?_ fun _ hnext => hnext
  · change max (max (costInPlace BindingPower.call e.power e.cost)
        (linksInPlace BindingPower.call e.power e.links + 1))
      (linksInPlace BindingPower.call e.power e.links + 1 + 1 + (value.cost + 1)) ≤ budget ↔
      max (costInPlace BindingPower.call e.power e.cost)
        (linksInPlace BindingPower.call e.power e.links + 2 + (value.cost + 1)) ≤ budget
    omega
  · change (Expr.place BindingPower.call e.power e.lexemes ++ [.sign .dot, .name member.name]) ++
      .sign .assign :: value.lexemes = _
    rw [List.append_assoc]
    rfl

end Expr

end ScriptLang
