import ScriptLang.Proofs.Syntax.Brackets
import ScriptLang.Proofs.Syntax.Nodes
import ScriptLang.Proofs.Token.Tiling

/-!
# Where the nodes of a program stand

A node spans the tokens it was read from, from the first to the last, parentheses around an expression
included. So it spans the nodes that stand in it, and nodes that do not stand in one another do not
overlap.

There is one kind of node that begins too late: an assignment to a member in parentheses, which begins
where the object of the member does. Nothing can follow an assignment in its chain, so no other node
begins with one, but for the statement that consists of it.

## Main definitions

* `InOrder`: tokens that follow one another
* `BeginsAt`, `EndsAt`, `Covers`: where some tokens begin and end
* `Node.ReadFrom`: the tokens that a node was read from
* `Node.Laid`: a node stands where its tokens do
* `Row`, `Node.Tidy`: so do nodes next to each other, and all that stands in a node

## Main results

* `covers_merge`: the span of what begins with the first token and of what ends with the last one
* `Covers.eq_filter`: the tokens that a span covers are those within it
* `Derives.tidy`: the nodes of a construct stand where its tokens do
* `Program.nodes_laid`: so do those of a program
* `Program.not_nodes_cover`: an assignment that does not span its tokens
-/

namespace ScriptLang

/-- The least span that covers spans that follow one another. -/
theorem Span.merge_merge_of_le {a b c : Span} (ha : a.start ≤ a.stop) (hab : a.stop ≤ b.start)
    (hb : b.start ≤ b.stop) (hbc : b.stop ≤ c.start) (hc : c.start ≤ c.stop) :
    (a.merge b).merge c = ⟨a.start, c.stop⟩ := by
  rw [merge, merge, min_eq_left (ha.trans hab), max_eq_right (hab.trans hb),
    min_eq_left (ha.trans (hab.trans (hb.trans hbc))), max_eq_right (hbc.trans hc)]

/-! ### Tokens in order -/

/-- The tokens follow one another, and each takes up room. -/
structure InOrder (tokens : List Token) : Prop where
  proper : ∀ token ∈ tokens, token.span.start < token.span.stop
  apart : tokens.Pairwise fun a b => a.span.stop ≤ b.span.start

theorem inOrder_cons {token : Token} {tokens : List Token} :
    InOrder (token :: tokens) ↔ token.span.start < token.span.stop ∧
      (∀ other ∈ tokens, token.span.stop ≤ other.span.start) ∧ InOrder tokens := by
  constructor
  · rintro ⟨hproper, hapart⟩
    rw [List.forall_mem_cons] at hproper
    rw [List.pairwise_cons] at hapart
    exact ⟨hproper.1, hapart.1, hproper.2, hapart.2⟩
  · rintro ⟨hfirst, hbefore, hproper, hapart⟩
    exact ⟨List.forall_mem_cons.2 ⟨hfirst, hproper⟩, List.pairwise_cons.2 ⟨hbefore, hapart⟩⟩

theorem inOrder_append {tokens tokens' : List Token} :
    InOrder (tokens ++ tokens') ↔ InOrder tokens ∧ InOrder tokens' ∧
      ∀ a ∈ tokens, ∀ b ∈ tokens', a.span.stop ≤ b.span.start := by
  constructor
  · rintro ⟨hproper, hapart⟩
    rw [List.forall_mem_append] at hproper
    rw [List.pairwise_append] at hapart
    exact ⟨⟨hproper.1, hapart.1⟩, ⟨hproper.2, hapart.2.1⟩, hapart.2.2⟩
  · rintro ⟨⟨hproper, hapart⟩, ⟨hproper', hapart'⟩, hbetween⟩
    exact ⟨List.forall_mem_append.2 ⟨hproper, hproper'⟩,
      List.pairwise_append.2 ⟨hapart, hapart', hbetween⟩⟩

/-- The first of the tokens begins at the position. -/
def BeginsAt (tokens : List Token) (p : Position) : Prop :=
  ∃ token ∈ tokens.head?, token.span.start = p

/-- The last of the tokens ends at the position. -/
def EndsAt (tokens : List Token) (p : Position) : Prop :=
  ∃ token ∈ tokens.getLast?, token.span.stop = p

/-- The span reaches from the first of the tokens to the last one. -/
structure Covers (tokens : List Token) (span : Span) : Prop where
  start : BeginsAt tokens span.start
  stop : EndsAt tokens span.stop

/-- The span reaches no further than the tokens. -/
structure Inside (tokens : List Token) (span : Span) : Prop where
  start : ∃ token ∈ tokens, token.span.start ≤ span.start
  stop : ∃ token ∈ tokens, span.stop ≤ token.span.stop

theorem InOrder.of_infix {tokens tokens' : List Token} (h : InOrder tokens')
    (hsub : tokens <:+: tokens') : InOrder tokens :=
  ⟨fun token htoken => h.proper token (hsub.subset htoken), h.apart.sublist hsub.sublist⟩

section Tokens

variable {token : Token} {ts ts' : List Token} {p : Position} {a b : Span}

theorem beginsAt_cons : BeginsAt (token :: ts) token.span.start := ⟨token, rfl, rfl⟩

theorem BeginsAt.append (h : BeginsAt ts p) (ts' : List Token) : BeginsAt (ts ++ ts') p := by
  obtain ⟨token, htoken, hp⟩ := h
  refine ⟨token, ?_, hp⟩
  rw [List.head?_append, Option.mem_def.1 htoken]
  rfl

theorem endsAt_singleton : EndsAt [token] token.span.stop := ⟨token, rfl, rfl⟩

theorem EndsAt.append (h : EndsAt ts' p) (ts : List Token) : EndsAt (ts ++ ts') p := by
  obtain ⟨token, htoken, hp⟩ := h
  refine ⟨token, ?_, hp⟩
  rw [List.getLast?_append, Option.mem_def.1 htoken]
  rfl

theorem EndsAt.cons (h : EndsAt ts p) (token : Token) : EndsAt (token :: ts) p := h.append [token]

theorem BeginsAt.le (h : BeginsAt ts p) (hts : InOrder ts) :
    ∀ token ∈ ts, p ≤ token.span.start := by
  obtain ⟨first, hfirst, rfl⟩ := h
  obtain ⟨rest, rfl⟩ := List.head?_eq_some_iff.1 hfirst
  obtain ⟨hproper, hbefore, -⟩ := inOrder_cons.1 hts
  exact List.forall_mem_cons.2
    ⟨le_rfl, fun token htoken => hproper.le.trans (hbefore token htoken)⟩

theorem EndsAt.le (h : EndsAt ts p) (hts : InOrder ts) : ∀ token ∈ ts, token.span.stop ≤ p := by
  obtain ⟨last, hlast, rfl⟩ := h
  obtain ⟨front, rfl⟩ := List.getLast?_eq_some_iff.1 hlast
  obtain ⟨-, hend, hbefore⟩ := inOrder_append.1 hts
  refine List.forall_mem_append.2 ⟨fun token htoken => ?_, List.forall_mem_singleton.2 le_rfl⟩
  exact (hbefore token htoken last (List.mem_singleton_self _)).trans
    (inOrder_cons.1 hend).1.le

theorem Inside.of_mem (h : token ∈ ts) : Inside ts token.span :=
  ⟨⟨token, h, le_rfl⟩, ⟨token, h, le_rfl⟩⟩

theorem Covers.inside (h : Covers ts a) : Inside ts a := by
  obtain ⟨⟨first, hfirst, hstart⟩, ⟨last, hlast, hstop⟩⟩ := h
  exact ⟨⟨first, List.mem_of_head? hfirst, hstart.le⟩, ⟨last, List.mem_of_getLast? hlast, hstop.ge⟩⟩

/-- The tokens that a span covers are all that lie within it. -/
theorem Covers.eq_filter (h : Covers ts a) (hts' : InOrder ts') (hsub : ts <:+: ts') :
    ts = ts'.filter fun t => a.start ≤ t.span.start ∧ t.span.stop ≤ a.stop := by
  have hts := hts'.of_infix hsub
  obtain ⟨front, back, rfl⟩ := hsub
  obtain ⟨hleft, hback, hbehind⟩ := inOrder_append.1 hts'
  obtain ⟨hfront, -, hbefore⟩ := inOrder_append.1 hleft
  obtain ⟨first, hfirst, hstart⟩ := h.start
  obtain ⟨last, hlast, hstop⟩ := h.stop
  have hnone : front.filter (fun t => a.start ≤ t.span.start ∧ t.span.stop ≤ a.stop) = [] := by
    refine List.filter_eq_nil_iff.2 fun t ht => ?_
    have hlt := (hfront.proper t ht).trans_le (hbefore t ht first (List.mem_of_head? hfirst))
    rw [hstart] at hlt
    simp [hlt.not_ge]
  have hnone' : back.filter (fun t => a.start ≤ t.span.start ∧ t.span.stop ≤ a.stop) = [] := by
    refine List.filter_eq_nil_iff.2 fun t ht => ?_
    have hmem : last ∈ front ++ ts := List.mem_append_right _ (List.mem_of_getLast? hlast)
    have hlt := (hbehind last hmem t ht).trans_lt (hback.proper t ht)
    rw [hstop] at hlt
    simp [hlt.not_ge]
  have hall : ts.filter (fun t => a.start ≤ t.span.start ∧ t.span.stop ≤ a.stop) = ts :=
    List.filter_eq_self.2 fun t ht => by simp [h.start.le hts t ht, h.stop.le hts t ht]
  rw [List.filter_append, List.filter_append, hnone, hall, hnone', List.nil_append, List.append_nil]

theorem Inside.mono (h : Inside ts a) (hts : ts ⊆ ts') : Inside ts' a := by
  obtain ⟨⟨first, hfirst, hstart⟩, ⟨last, hlast, hstop⟩⟩ := h
  exact ⟨⟨first, hts hfirst, hstart⟩, ⟨last, hts hlast, hstop⟩⟩

/-- The least span that covers what begins with the first token and what ends with the last one reaches
from the one to the other. -/
theorem covers_merge (hts : InOrder ts) (hstart : BeginsAt ts a.start) (hstop : EndsAt ts b.stop)
    (ha : Inside ts a) (hb : Inside ts b) : Covers ts (a.merge b) := by
  obtain ⟨last, hlast, halast⟩ := ha.stop
  obtain ⟨first, hfirst, hbfirst⟩ := hb.start
  have hmin : min a.start b.start = a.start :=
    min_eq_left ((hstart.le hts first hfirst).trans hbfirst)
  have hmax : max a.stop b.stop = b.stop :=
    max_eq_right (halast.trans (hstop.le hts last hlast))
  exact ⟨by rwa [Span.merge, hmin], by rwa [Span.merge, hmax]⟩

theorem covers_append (hts : InOrder (ts ++ ts')) (hstart : BeginsAt ts a.start) (ha : Inside ts a)
    (hstop : EndsAt ts' b.stop) (hb : Inside ts' b) : Covers (ts ++ ts') (a.merge b) :=
  covers_merge hts (hstart.append ts') (hstop.append ts) (ha.mono (List.subset_append_left ts ts'))
    (hb.mono (List.subset_append_right ts ts'))

theorem covers_cons (hts : InOrder (token :: ts)) (hstop : EndsAt ts b.stop) (hb : Inside ts b) :
    Covers (token :: ts) (token.span.merge b) :=
  covers_append hts beginsAt_cons (.of_mem (List.mem_singleton_self token)) hstop hb

/-- The tokens behind a token are among all of them. -/
theorem infix_behind (ts ts' : List Token) (token : Token) : ts' <:+: ts ++ token :: ts' :=
  List.infix_append_of_infix_right (List.infix_cons List.infix_rfl)

end Tokens

/-! ### Nodes where their tokens are -/

/-- The object of the member that an expression assigns to. -/
def Expr.assigned? : Expr → Option Expr
  | assignMember _ object _ _ => some object
  | _ => none

namespace Node

/-- The tokens are those that the node was read from. -/
def ReadFrom (tokens : List Token) : Node → Prop
  | expr e => ∃ n, Derives n tokens (.expr e)
  | function f => ∃ n name?, Derives n tokens (.function name? f)
  | block b => ∃ n, Derives n tokens (.block b)
  | conditional c => ∃ n, Derives n tokens (.conditional c)
  | stmt s => TopLevel tokens s ∨ ∃ n, Derives n tokens (.stmt s)

/-- The object of the member that the node assigns to. -/
def assigned? : Node → Option Expr
  | expr e => e.assigned?
  | stmt (.expr e) => e.assigned?
  | _ => none

/-- The node assigns to a member in parentheses, and begins where the object of the member does. -/
def BeginsLate (tokens : List Token) (x : Node) : Prop :=
  tokens.head?.map Token.lexeme = some (.sign .leftParen) ∧
    ∃ object, x.assigned? = some object ∧ x.span.start = object.span.start

/-- The node stands where its tokens do: it ends with the last one and begins with the first one, or
later if it assigns to a member in parentheses. It spans its children, which do not overlap. -/
structure Laid (tokens : List Token) (x : Node) : Prop where
  readFrom : x.ReadFrom tokens
  begins : BeginsAt tokens x.span.start ∨ x.BeginsLate tokens
  stop : EndsAt tokens x.span.stop
  inside : Inside tokens x.span
  ordered : x.span.start ≤ x.span.stop
  covers : ∀ y ∈ x.children, x.span.start ≤ y.span.start ∧ y.span.stop ≤ x.span.stop
  apart : x.children.Pairwise fun y z => y.span.stop ≤ z.span.start

end Node

/-- The nodes follow one another, and they and all that stands in them stand where their tokens do. -/
structure Row (tokens : List Token) (xs : List Node) : Prop where
  apart : xs.Pairwise fun x y => x.span.stop ≤ y.span.start
  laid : ∀ x ∈ xs, ∀ y, x.Contains y → ∃ used, used <:+: tokens ∧ y.Laid used

/-- The node stands where its tokens do, and so does all that stands in it. -/
structure Node.Tidy (tokens : List Token) (x : Node) : Prop where
  laid : x.Laid tokens
  row : Row tokens x.children

variable {used ts ts' : List Token} {x y : Node} {xs ys : List Node}

theorem Node.Tidy.exists_laid (h : x.Tidy used) (hy : x.Contains y) :
    ∃ part, part <:+: used ∧ y.Laid part := by
  obtain rfl | ⟨z, hz, hy⟩ := Node.contains_iff.1 hy
  · exact ⟨used, List.infix_rfl, h.laid⟩
  · exact h.row.laid z hz y hy

namespace Row

theorem nil : Row used [] := ⟨.nil, List.forall_mem_nil _⟩

theorem mono (h : Row ts xs) (hts : ts <:+: used) : Row used xs := by
  refine ⟨h.apart, fun x hx y hy => ?_⟩
  obtain ⟨part, hpart, hlaid⟩ := h.laid x hx y hy
  exact ⟨part, hpart.trans hts, hlaid⟩

theorem single (h : x.Tidy ts) : Row ts [x] :=
  ⟨List.pairwise_singleton _ _, List.forall_mem_singleton.2 fun _ hy => h.exists_laid hy⟩

theorem inside (h : Row ts xs) : ∀ x ∈ xs, Inside ts x.span := by
  intro x hx
  obtain ⟨part, hpart, hlaid⟩ := h.laid x hx x (.refl x)
  exact hlaid.inside.mono hpart.subset

/-- Whatever stands between the tokens of the one and of the other. -/
theorem append (between : List Token) (hused : InOrder (ts ++ (between ++ ts'))) (hxs : Row ts xs)
    (hys : Row ts' ys) : Row (ts ++ (between ++ ts')) (xs ++ ys) where
  apart := by
    obtain ⟨-, -, hbetween⟩ := inOrder_append.1 hused
    refine List.pairwise_append.2 ⟨hxs.apart, hys.apart, fun x hx y hy => ?_⟩
    obtain ⟨last, hlast, hstop⟩ := (hxs.inside x hx).stop
    obtain ⟨first, hfirst, hstart⟩ := (hys.inside y hy).start
    exact hstop.trans ((hbetween last hlast first (List.mem_append_right _ hfirst)).trans hstart)
  laid := by
    have hleft : ts <:+: ts ++ (between ++ ts') := List.infix_append_left
    have hright : ts' <:+: ts ++ (between ++ ts') :=
      List.infix_append_of_infix_right List.infix_append_right
    exact List.forall_mem_append.2 ⟨(hxs.mono hleft).laid, (hys.mono hright).laid⟩

theorem cons (between : List Token) (hused : InOrder (ts ++ (between ++ ts'))) (hx : x.Tidy ts)
    (hys : Row ts' ys) : Row (ts ++ (between ++ ts')) (x :: ys) :=
  append between hused (single hx) hys

/-- A row begins with a node and goes on behind what ends it. -/
theorem behind {ends : List Token} (hused : InOrder (ts ++ ends ++ ts'))
    (hx : InOrder ts → x.Tidy ts) (hys : InOrder ts' → Row ts' ys) :
    Row (ts ++ ends ++ ts') (x :: ys) := by
  rw [List.append_assoc] at hused ⊢
  obtain ⟨hts, hrest, -⟩ := inOrder_append.1 hused
  obtain ⟨-, hts', -⟩ := inOrder_append.1 hrest
  exact .cons ends hused (hx hts) (hys hts')

end Row

namespace Node

/-- A node that begins with its children, if it begins late, is tidy if they are. -/
theorem Tidy.of_begins (hused : InOrder used) (hread : x.ReadFrom used)
    (hbegins : BeginsAt used x.span.start ∨ x.BeginsLate used) (hstop : EndsAt used x.span.stop)
    (hinside : Inside used x.span) (hordered : x.span.start ≤ x.span.stop)
    (hfirst : ∀ y ∈ x.children, x.span.start ≤ y.span.start) (hrow : Row used x.children) :
    x.Tidy used := by
  refine ⟨⟨hread, hbegins, hstop, hinside, hordered, fun y hy => ⟨hfirst y hy, ?_⟩, hrow.apart⟩, hrow⟩
  obtain ⟨last, hlast, hle⟩ := (hrow.inside y hy).stop
  exact hle.trans (hstop.le hused last hlast)

/-- A node that spans its tokens is tidy if its children are. -/
theorem Tidy.of_covers (hused : InOrder used) (hread : x.ReadFrom used)
    (hcovers : Covers used x.span) (hrow : Row used x.children) : x.Tidy used := by
  have hinside := hcovers.inside
  refine .of_begins hused hread (.inl hcovers.start) hcovers.stop hinside ?_ (fun y hy => ?_) hrow
  · obtain ⟨last, hlast, hstop⟩ := hinside.start
    exact (hcovers.start.le hused last hlast).trans
      ((hused.proper last hlast).le.trans (hcovers.stop.le hused last hlast))
  · obtain ⟨token, htoken, hle⟩ := (hrow.inside y hy).start
    exact (hcovers.start.le hused token htoken).trans hle

/-- What assigns to no member spans its tokens. -/
theorem Laid.covers_of_assigned? (h : x.Laid used) (hx : x.assigned? = none) :
    Covers used x.span := by
  refine ⟨h.begins.resolve_right fun hlate => ?_, h.stop⟩
  obtain ⟨-, object, hobject, -⟩ := hlate
  rw [hx] at hobject
  cases hobject

end Node

/-! ### Derivations -/

/-- A member is written behind its object, and does not reach past the whole. -/
def Expr.MemberBehind : Expr → Prop
  | member span object field => object.span.stop ≤ field.span.start ∧
    field.span.start ≤ field.span.stop ∧ field.span.stop ≤ span.stop
  | _ => True

/-- A member begins with its object, unless it stands in parentheses. -/
def Expr.BeginsWithObject (tokens : List Token) : Expr → Prop
  | member _ object _ => BeginsAt tokens object.span.start ∨
    tokens.head?.map Token.lexeme = some (.sign .leftParen)
  | _ => True

/-- The nodes of the construct stand where its tokens do. -/
def Phrase.Tidy (tokens : List Token) : Phrase → Prop
  | expr e => (Node.expr e).Tidy tokens ∧ e.MemberBehind
  | chain _ e => BeginsAt tokens e.span.start ∧ (Node.expr e).Tidy tokens ∧ e.MemberBehind ∧
    e.BeginsWithObject tokens
  | args es => Row tokens (es.map .expr)
  | function _ f => (Node.function f).Tidy tokens
  | methods ds => Row tokens (ds.map fun d => .function d.function)
  | block b => (Node.block b).Tidy tokens
  | stmts ss => Row tokens (ss.map .stmt)
  | conditional c => (Node.conditional c).Tidy tokens
  | otherwise branch => Row tokens branch.children
  | stmt s => (Node.stmt s).Tidy tokens

theorem Token.tidy_of_atom? {token : Token} {e : Expr} (h : token.atom? = some e) :
    e.span = token.span ∧ (Node.expr e).children = [] ∧ e.MemberBehind ∧
      e.BeginsWithObject [token] := by
  unfold Token.atom? at h
  split at h <;> cases h <;> exact ⟨rfl, rfl, trivial, trivial⟩

theorem Expr.MemberBehind.withSpan {e : Expr} {span : Span} (h : e.MemberBehind)
    (hspan : e.span.stop ≤ span.stop) : (e.withSpan span).MemberBehind := by
  cases e with
  | member => exact ⟨h.1, h.2.1, h.2.2.trans hspan⟩
  | _ => trivial

theorem Expr.beginsWithObject_of_leftParen (e : Expr) (opened : Span) (tokens : List Token) :
    e.BeginsWithObject (⟨.sign .leftParen, opened⟩ :: tokens) := by
  cases e with
  | member => exact .inr rfl
  | _ => trivial

/-- A conditional ends with the last of the tokens behind its word. -/
theorem exists_getLast?_span_eq_lastSpan (token : Token) (tokens : List Token) :
    ∃ last ∈ (token :: tokens).getLast?, last.span = lastSpan token.span tokens := by
  rw [lastSpan, List.getLast?_cons]
  cases tokens.getLast? with
  | none => exact ⟨token, rfl, rfl⟩
  | some last => exact ⟨last, rfl, rfl⟩

/-- Parentheses are what an expression begins and ends with. -/
theorem Phrase.Tidy.group {n : Nat} {e : Expr} {opened closed : Span} (h : Phrase.Tidy ts (.expr e))
    (hused : InOrder (⟨.sign .leftParen, opened⟩ :: (ts ++ [⟨.sign .rightParen, closed⟩])))
    (hread : (Node.expr (e.withSpan (opened.merge closed))).ReadFrom
      (⟨.sign .leftParen, opened⟩ :: (ts ++ [⟨.sign .rightParen, closed⟩]))) :
    Phrase.Tidy (⟨.sign .leftParen, opened⟩ :: (ts ++ [⟨.sign .rightParen, closed⟩]))
      (.chain n (e.withSpan (opened.merge closed))) := by
  obtain ⟨htidy, hmember⟩ := h
  have hsub : ts <:+: ⟨.sign .leftParen, opened⟩ :: (ts ++ [⟨.sign .rightParen, closed⟩]) :=
    List.infix_cons List.infix_append_left
  have hcovers := covers_cons hused (endsAt_singleton.append ts) (.of_mem List.mem_concat_self)
  have hspan : (e.withSpan (opened.merge closed)).span = opened.merge closed := e.span_withSpan _
  have hrow := htidy.row.mono hsub
  rw [← hspan] at hcovers
  rw [← Node.children_withSpan e (opened.merge closed)] at hrow
  have hend : e.span.stop ≤ (opened.merge closed).stop := by
    obtain ⟨last, hlast, hle⟩ := (htidy.laid.inside.mono hsub.subset).stop
    rw [← hspan]
    exact hle.trans (hcovers.stop.le hused last hlast)
  exact ⟨hcovers.start, .of_covers hused hread hcovers hrow, hmember.withSpan hend,
    Expr.beginsWithObject_of_leftParen _ _ _⟩

/-- A member begins with its object and ends with its name. -/
theorem Phrase.Tidy.member {n k : Nat} {object : Expr} {field : Ident} {dot : Token}
    (h : Phrase.Tidy ts (.chain n object))
    (hused : InOrder (ts ++ [dot, ⟨.name field.name, field.span⟩]))
    (hread : (Node.expr (.member (object.span.merge field.span) object field)).ReadFrom
      (ts ++ [dot, ⟨.name field.name, field.span⟩])) :
    Phrase.Tidy (ts ++ [dot, ⟨.name field.name, field.span⟩])
      (.chain k (.member (object.span.merge field.span) object field)) := by
  let name : Token := ⟨.name field.name, field.span⟩
  have hname : name ∈ [dot, name] := List.mem_cons_of_mem _ List.mem_cons_self
  obtain ⟨hbegins, htidy, -⟩ := h
  obtain ⟨-, hrest, hbetween⟩ := inOrder_append.1 hused
  have hcovers := covers_append hused hbegins htidy.laid.inside (endsAt_singleton.cons dot)
    (.of_mem hname)
  have hbehind : object.span.stop ≤ field.span.start := by
    obtain ⟨last, hlast, hle⟩ := htidy.laid.inside.stop
    exact hle.trans (hbetween last hlast name hname)
  have hproper := hrest.proper name hname
  exact ⟨hcovers.start, .of_covers hused hread hcovers ((Row.single htidy).mono List.infix_append_left),
    ⟨hbehind, hproper.le, le_max_right _ _⟩, .inl (hbegins.append _)⟩

/-- An assignment to a member ends with its value. It begins with the object of the member, and this may
stand in parentheses together with the name. -/
theorem Phrase.Tidy.assignMember {k : Nat} {span : Span} {object value : Expr} {field : Ident}
    {sign : Token} (h : Phrase.Tidy ts (.chain k (.member span object field)))
    (hused : InOrder (ts ++ sign :: ts'))
    (hread : (Node.expr (.assignMember ((object.span.merge field.span).merge value.span) object field
      value)).ReadFrom (ts ++ sign :: ts'))
    (hvalue : (Node.expr value).Tidy ts') :
    (Node.expr (.assignMember ((object.span.merge field.span).merge value.span) object field
      value)).Tidy (ts ++ sign :: ts') := by
  obtain ⟨-, hmember, ⟨hbehind, hfield, hfieldstop⟩, hbegins⟩ := h
  have hrow : Row _ [.expr object, .expr value] := .append [sign] hused hmember.row (.single hvalue)
  obtain ⟨_, -, hobject⟩ :=
    hmember.row.laid (.expr object) (List.mem_singleton_self _) (.expr object) (.refl _)
  have hapart : span.stop ≤ value.span.start := by
    have hpair : Row _ [.expr (.member span object field), .expr value] :=
      .cons [sign] hused hmember (.single hvalue)
    exact (List.pairwise_cons.1 hpair.apart).1 (.expr value) (List.mem_singleton_self _)
  have hmerge : (object.span.merge field.span).merge value.span =
      ⟨object.span.start, value.span.stop⟩ :=
    Span.merge_merge_of_le hobject.ordered hbehind hfield (hfieldstop.trans hapart)
      hvalue.laid.ordered
  have hle : object.span.start ≤ value.span.start :=
    hobject.ordered.trans (hbehind.trans (hfield.trans (hfieldstop.trans hapart)))
  rw [hmerge] at hread ⊢
  refine .of_begins hused hread ?_ ((hvalue.laid.stop.cons sign).append ts) ?_
    (hle.trans hvalue.laid.ordered) ?_ hrow
  · obtain hstart | hparen := hbegins
    · exact .inl (hstart.append _)
    · refine .inr ⟨?_, object, rfl, rfl⟩
      rw [List.head?_append, Option.map_or, hparen]
      rfl
  · obtain ⟨hin, -⟩ := hrow.inside (.expr object) List.mem_cons_self
    exact ⟨hin, (hvalue.laid.inside.mono (infix_behind ts ts' sign).subset).stop⟩
  · exact List.forall_mem_cons.2 ⟨le_rfl, List.forall_mem_singleton.2 hle⟩

/-- The nodes of a construct stand where its tokens do. The induction is on the derivation. -/
theorem Derives.tidy {n : Nat} {tokens : List Token} {phrase : Phrase}
    (h : Derives n tokens phrase) (htokens : InOrder tokens) : phrase.Tidy tokens := by
  induction h with
  | @atom n token e hatom =>
    obtain ⟨hspan, hchildren, hmember, hbegins⟩ := Token.tidy_of_atom? hatom
    have hcovers : Covers [token] e.span := hspan ▸ ⟨beginsAt_cons, endsAt_singleton⟩
    refine ⟨hcovers.start, .of_covers htokens ⟨n + 1, .expr (n := n) (.atom hatom)⟩ hcovers ?_,
      hmember, hbegins⟩
    rw [hchildren]
    exact .nil
  | @unary n ts op operand sign hoperand ih =>
    have hsub : ts <:+: ⟨.sign op.sign, sign⟩ :: ts := List.infix_cons List.infix_rfl
    obtain ⟨htidy, -⟩ := ih (htokens.of_infix hsub)
    have hcovers := covers_cons htokens htidy.laid.stop htidy.laid.inside
    exact ⟨hcovers.start, .of_covers htokens ⟨n + 1, .expr (n := n) (.unary hoperand)⟩ hcovers
      ((Row.single htidy).mono hsub), trivial, trivial⟩
  | @group n ts e opened closed he ih =>
    have hsub : ts <:+: ⟨.sign .leftParen, opened⟩ :: (ts ++ [⟨.sign .rightParen, closed⟩]) :=
      List.infix_cons List.infix_append_left
    exact (ih (htokens.of_infix hsub)).group htokens ⟨n + 1, .expr (n := n) (.group he)⟩
  | @lambda n ts f hf ih =>
    have htidy := ih htokens
    have hcovers := htidy.laid.covers_of_assigned? rfl
    exact ⟨hcovers.start, .of_covers htokens ⟨n + 1, .expr (n := n) (.lambda hf)⟩ hcovers
      (.single htidy), trivial, trivial⟩
  | @binary n k ts ts' left right op sign hleft hright ihl ihr =>
    obtain ⟨hbegins, hl, -⟩ := ihl (htokens.of_infix List.infix_append_left)
    obtain ⟨hr, -⟩ := ihr (htokens.of_infix (infix_behind ts ts' _))
    have hcovers := covers_append htokens hbegins hl.laid.inside (hr.laid.stop.cons _)
      (hr.laid.inside.mono (List.subset_cons_self _ ts'))
    exact ⟨hcovers.start, .of_covers htokens ⟨k + 1, .expr (.binary hleft hright)⟩ hcovers
      (.cons [_] htokens hl (.single hr)), trivial, trivial⟩
  | @call n k ts ts' callee args opened closed hcallee hargs ihcallee ihargs =>
    have hclosed : ts' <:+: ts' ++ [⟨.sign .rightParen, closed⟩] := List.infix_append_left
    obtain ⟨hbegins, htidy, -⟩ := ihcallee (htokens.of_infix List.infix_append_left)
    have hrow := (ihargs (htokens.of_infix (hclosed.trans (infix_behind ts _ _)))).mono hclosed
    have hcovers := covers_append htokens hbegins htidy.laid.inside
      ((endsAt_singleton.append ts').cons _) (.of_mem (List.mem_cons_of_mem _ List.mem_concat_self))
    exact ⟨hcovers.start, .of_covers htokens ⟨k + 1, .expr (.call hcallee hargs)⟩ hcovers
      (.cons [_] htokens htidy hrow), trivial, trivial⟩
  | @member n k ts object field dot hobject ih =>
    have htidy := ih (htokens.of_infix List.infix_append_left)
    exact htidy.member htokens ⟨k + 1, .expr (.member hobject)⟩
  | @assignName n k ts ts' target value sign htarget hvalue ihtarget ihvalue =>
    obtain ⟨hbegins, hname, -⟩ := ihtarget (htokens.of_infix List.infix_append_left)
    obtain ⟨htidy, -⟩ := ihvalue (htokens.of_infix (infix_behind ts ts' _))
    have hcovers := covers_append htokens hbegins hname.laid.inside (htidy.laid.stop.cons _)
      (htidy.laid.inside.mono (List.subset_cons_self _ ts'))
    exact ⟨.of_covers htokens ⟨k + 1, .assignName htarget hvalue⟩ hcovers
      ((Row.single htidy).mono (infix_behind ts ts' _)), trivial⟩
  | @assignMember n k ts ts' object value field span sign htarget hvalue ihtarget ihvalue =>
    have hmember := ihtarget (htokens.of_infix List.infix_append_left)
    obtain ⟨htidy, -⟩ := ihvalue (htokens.of_infix (infix_behind ts ts' _))
    exact ⟨hmember.assignMember htokens ⟨k + 1, .assignMember htarget hvalue⟩ htidy, trivial⟩
  | expr _ ih =>
    obtain ⟨-, htidy, hmember, -⟩ := ih htokens
    exact ⟨htidy, hmember⟩
  | noArgs => exact .nil
  | lastArg _ ih => exact .single (ih htokens).1
  | @arg n ts ts' e es comma _ _ ih ihrest =>
    exact .cons [_] htokens (ih (htokens.of_infix List.infix_append_left)).1
      (ihrest (htokens.of_infix (infix_behind ts ts' _)))
  | @function n ts ts' name? params body start opened closed hparams hbody ih =>
    have hsub : ts' <:+: nameTokens name? ++ ⟨.sign .leftParen, opened⟩ ::
        (ts ++ ⟨.sign .rightParen, closed⟩ :: ts') :=
      (infix_behind ts ts' _).trans (infix_behind _ _ _)
    have htidy := ih (htokens.of_infix (List.infix_cons hsub))
    have hcovers := covers_cons htokens ((((htidy.laid.stop.cons _).append _).cons _).append _)
      (htidy.laid.inside.mono hsub.subset)
    exact .of_covers htokens ⟨n, name?, .function hparams hbody⟩ hcovers
      ((Row.single htidy).mono (List.infix_cons hsub))
  | noMethods => exact .nil
  | method _ _ _ ih ihrest => exact .behind htokens ih ihrest
  | @block n ts ss opened closed hstmts ih =>
    have hsub : ts <:+: ⟨.sign .leftBrace, opened⟩ :: (ts ++ [⟨.sign .rightBrace, closed⟩]) :=
      List.infix_cons List.infix_append_left
    have hcovers := covers_cons htokens (endsAt_singleton.append ts) (.of_mem List.mem_concat_self)
    exact .of_covers htokens ⟨n + 1, .block hstmts⟩ hcovers ((ih (htokens.of_infix hsub)).mono hsub)
  | noStmts => exact .nil
  | stmts _ _ _ ih ihrest => exact .behind htokens ih ihrest
  | @conditional n ts ts' ts'' condition thenBlock branch start hc hb he ihc ihb ihe =>
    obtain ⟨-, -, hrest⟩ := inOrder_cons.1 htokens
    obtain ⟨hts, hrest', -⟩ := inOrder_append.1 hrest
    obtain ⟨hts', hts'', -⟩ := inOrder_append.1 hrest'
    obtain ⟨last, hlast, hspan⟩ :=
      exists_getLast?_span_eq_lastSpan ⟨.keyword .ifWord, start⟩ (ts ++ (ts' ++ ts''))
    have hcovers := covers_merge htokens beginsAt_cons ⟨last, hlast, rfl⟩
      (.of_mem List.mem_cons_self) (.of_mem (List.mem_of_getLast? hlast))
    rw [hspan] at hcovers
    have hrow : Row _ (.expr condition :: .block thenBlock :: branch.children) :=
      .cons [] hrest (ihc hts).1 (.cons [] hrest' (ihb hts') (ihe hts''))
    exact .of_covers htokens ⟨n, .conditional hc hb he⟩ hcovers
      (hrow.mono (List.infix_cons List.infix_rfl))
  | noElse => exact .nil
  | elseBlock _ ih =>
    have htidy := ih (inOrder_cons.1 htokens).2.2
    exact (Row.single htidy).mono (List.infix_cons List.infix_rfl)
  | elseIf _ ih =>
    have htidy := ih (inOrder_cons.1 htokens).2.2
    exact (Row.single htidy).mono (List.infix_cons List.infix_rfl)
  | @define n ts name f hf ih =>
    have htidy := ih htokens
    exact .of_covers htokens (.inr ⟨n, .define hf⟩) (htidy.laid.covers_of_assigned? rfl)
      (.single htidy)
  | @declareClass n ts name ds start opened closed hmethods ih =>
    have hsub : ts <:+: ⟨.keyword .clx, start⟩ :: ⟨.name name.name, name.span⟩ ::
        ⟨.sign .leftBrace, opened⟩ :: (ts ++ [⟨.sign .rightBrace, closed⟩]) :=
      List.infix_cons (List.infix_cons (List.infix_cons List.infix_append_left))
    have hcovers := covers_cons htokens (((endsAt_singleton.append ts).cons _).cons _)
      (.of_mem (by simp))
    exact .of_covers htokens (.inr ⟨n, .declareClass hmethods⟩) hcovers
      ((ih (htokens.of_infix hsub)).mono hsub)
  | @runConditional n ts c hc ih =>
    have htidy := ih htokens
    exact .of_covers htokens (.inr ⟨n, .runConditional hc⟩) (htidy.laid.covers_of_assigned? rfl)
      (.single htidy)
  | @giveNothing n word =>
    exact .of_covers htokens (.inr ⟨n, .giveNothing⟩) ⟨beginsAt_cons, endsAt_singleton⟩ .nil
  | @giveBack n ts value word hvalue ih =>
    have hsub : ts <:+: ⟨.keyword .returnWord, word⟩ :: ts := List.infix_cons List.infix_rfl
    obtain ⟨htidy, -⟩ := ih (htokens.of_infix hsub)
    have hcovers := covers_cons htokens htidy.laid.stop htidy.laid.inside
    exact .of_covers htokens (.inr ⟨n, .giveBack hvalue⟩) hcovers ((Row.single htidy).mono hsub)
  | @load n ts paths word opened closed hpaths hnonempty =>
    have hcovers := covers_cons htokens ((endsAt_singleton.append ts).cons _)
      (.of_mem (List.mem_cons_of_mem _ List.mem_concat_self))
    exact .of_covers htokens (.inr ⟨n, .load hpaths hnonempty⟩) hcovers .nil
  | @runBlock n ts b hb ih =>
    have htidy := ih htokens
    exact .of_covers htokens (.inr ⟨n, .runBlock hb⟩) (htidy.laid.covers_of_assigned? rfl)
      (.single htidy)
  | @evaluate n ts e he ih =>
    obtain ⟨htidy, -⟩ := ih htokens
    obtain ⟨-, hbegins, hstop, hinside, hordered, -, -⟩ := htidy.laid
    exact .of_begins htokens (.inr ⟨n, .evaluate he⟩) hbegins hstop hinside hordered
      (List.forall_mem_singleton.2 le_rfl) (.single htidy)

theorem TopLevel.tidy {s : Stmt} (h : TopLevel used s) (hused : InOrder used) :
    (Node.stmt s).Tidy used := by
  cases h with
  | @package name word =>
    have hname : EndsAt [(⟨.name name.name, name.span⟩ : Token)] name.span.stop := endsAt_singleton
    have hcovers := covers_cons hused hname (.of_mem List.mem_cons_self)
    exact .of_covers hused (.inl .package) hcovers .nil
  | stmt hs => exact hs.tidy hused

theorem Node.ReadFrom.balanced (h : x.ReadFrom used) : Balanced used := by
  cases x with
  | stmt s =>
    obtain (_ | hs) | ⟨_, hs⟩ := h
    · exact .plain rfl (.single rfl)
    · exact hs.balanced
    · exact hs.balanced
  | function f =>
    obtain ⟨_, _, hf⟩ := h
    exact hf.balanced
  | _ =>
    obtain ⟨_, hx⟩ := h
    exact hx.balanced

/-! ### Programs -/

/-- The tokens of a text follow one another. -/
theorem inOrder_of_tokenize {source : String} {stream : TokenStream}
    (h : tokenize source = .ok stream) : InOrder stream.tokens := by
  obtain ⟨finish, htokens, -⟩ := tokensFrom_of_tokenize h
  have hstart : Position.start = Position.counted [] := rfl
  obtain ⟨_, -, htiled, -⟩ := tokensFrom_tiled hstart htokens
  exact ⟨htiled.start_lt_stop, htiled.pairwise_le⟩

namespace Program

/-- The statements of a program follow one another where their tokens do. The induction is on the
statements. -/
theorem Accounted.row {p : Program} (h : p.Accounted used) (hused : InOrder used) :
    Row used (p.stmts.map .stmt) := by
  obtain ⟨stmts, span⟩ := p
  change Repeated (Terminated TopLevel) used stmts at h
  change Row used (stmts.map .stmt)
  induction h with
  | nil => exact .nil
  | cons hitem _ ih =>
    obtain ⟨ts, semi, rfl, hs, -⟩ := hitem
    exact .behind hused hs.tidy ih

/-- The statements of a program that is read are in the tokens of its unit. -/
theorem exists_row_of_parse {source : SourceUnit} {p : Program} (h : parse source = .ok p) :
    ∃ stream, tokenize source.text = .ok stream ∧ InOrder stream.tokens ∧
      Row stream.tokens (p.stmts.map .stmt) := by
  obtain ⟨stream, htokens, hprogram⟩ := exists_ofTokens_of_parse h
  have horder := inOrder_of_tokenize htokens
  exact ⟨stream, htokens, horder, (ofTokens_accounted hprogram).row horder⟩

/-- The nodes of a program that is read stand where the tokens do that they were read from: they end
with the last of them and begin with the first, or, if they assign to a member in parentheses, with the
object of the member. Each spans its children, and those do not overlap. -/
theorem nodes_laid {source : SourceUnit} {p : Program} (h : parse source = .ok p) :
    ∃ stream, tokenize source.text = .ok stream ∧ InOrder stream.tokens ∧
      (p.stmts.map Node.stmt).Pairwise (fun x y => x.span.stop ≤ y.span.start) ∧
      ∀ s ∈ p.stmts, ∀ x, (Node.stmt s).Contains x →
        ∃ used, used <:+: stream.tokens ∧ x.Laid used := by
  obtain ⟨stream, htokens, horder, hapart, hlaid⟩ := exists_row_of_parse h
  exact ⟨stream, htokens, horder, hapart, fun s hs => hlaid _ (List.mem_map_of_mem hs)⟩

/-- The assignment `(a.b) = 1`. -/
def groupedTarget : Program where
  stmts :=
    [.expr (.assignMember ⟨⟨1, 2⟩, ⟨1, 10⟩⟩ (.name ⟨⟨1, 2⟩, ⟨1, 3⟩⟩ "a") ⟨"b", ⟨1, 4⟩, ⟨1, 5⟩⟩
      (.int ⟨⟨1, 9⟩, ⟨1, 10⟩⟩ 1))]
  span := ⟨⟨1, 1⟩, ⟨1, 10⟩⟩

/-- The tokens of `(a.b) = 1`. -/
def groupedTargetTokens : List Token :=
  [⟨.sign .leftParen, ⟨1, 1⟩, ⟨1, 2⟩⟩, ⟨.name "a", ⟨1, 2⟩, ⟨1, 3⟩⟩, ⟨.sign .dot, ⟨1, 3⟩, ⟨1, 4⟩⟩,
    ⟨.name "b", ⟨1, 4⟩, ⟨1, 5⟩⟩, ⟨.sign .rightParen, ⟨1, 5⟩, ⟨1, 6⟩⟩, ⟨.sign .assign, ⟨1, 7⟩, ⟨1, 8⟩⟩,
    ⟨.int 1, ⟨1, 9⟩, ⟨1, 10⟩⟩]

theorem tokenize_groupedTarget :
    tokenize "(a.b) = 1" = .ok ⟨groupedTargetTokens, ⟨1, 10⟩, ⟨1, 10⟩⟩ := by
  rw [tokenize, tokensFrom_cons rfl rfl (tokensFrom_cons rfl rfl (tokensFrom_cons rfl rfl
    (tokensFrom_cons rfl rfl (tokensFrom_cons rfl rfl (tokensFrom_cons rfl rfl
      (tokensFrom_cons rfl rfl (tokensFrom_end rfl)))))))]
  rfl

theorem parse_groupedTarget : parse ⟨"unit", "(a.b) = 1"⟩ = .ok groupedTarget := by
  rw [parse, tokenize_groupedTarget]
  rfl

/-- The nodes of the assignment: the whole, the object and the value. -/
theorem nodes_laid_groupedTarget :
    ∃ stream, tokenize "(a.b) = 1" = .ok stream ∧ InOrder stream.tokens ∧
      (groupedTarget.stmts.map Node.stmt).Pairwise (fun x y => x.span.stop ≤ y.span.start) ∧
      ∀ s ∈ groupedTarget.stmts, ∀ x, (Node.stmt s).Contains x →
        ∃ used, used <:+: stream.tokens ∧ x.Laid used :=
  nodes_laid parse_groupedTarget

/-- The assignment begins at the object, but no construct consists of the tokens from there on: one of
them closes the parenthesis that is left out. -/
theorem not_nodes_cover :
    ¬∀ (source : SourceUnit) (p : Program) (stream : TokenStream), parse source = .ok p →
      tokenize source.text = .ok stream → ∀ s ∈ p.stmts, ∀ x, (Node.stmt s).Contains x →
        ∃ used, used <:+: stream.tokens ∧ x.ReadFrom used ∧ Covers used x.span := by
  intro h
  obtain ⟨used, hsub, hread, hcovers⟩ := h _ _ _ parse_groupedTarget tokenize_groupedTarget _
    List.mem_cons_self _ (.refl _)
  have hused := hcovers.eq_filter (inOrder_of_tokenize tokenize_groupedTarget) hsub
  have hopen := hread.balanced.openBrackets_eq_zero
  rw [hused] at hopen
  exact absurd hopen (by decide)

end Program

end ScriptLang
