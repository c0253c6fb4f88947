import ScriptLang.Proofs.Syntax.Derivation

/-!
# The places of a program

A fault that code runs into lies at an expression, at the name of a member or at the path of a load.
Functions count as places too, which tells the unit that holds one. The spans of all of them are those
of tokens, and the least spans that cover several of them.

## Main definitions

* `Place`: a place that a fault can lie at
* `Expr.places`, `Program.places`: the places of a tree
* `Region`: a set of spans that is closed under covering

## Main results

* `Derives.within`: the places of a construct lie in every region that holds its tokens
-/

namespace ScriptLang

/-- A place in a program. -/
inductive Place where
  /-- An expression other than a call. -/
  | node (span : Span)
  | call (span : Span)
  /-- The name of a member. -/
  | name (span : Span)
  /-- The path of a module to load. -/
  | path (span : Span)
  | function (f : Lambda)

/-- Where a place is. -/
def Place.span : Place → Span
  | node span | call span | name span | path span => span
  | function f => f.span

mutual

/-- The places of an expression. -/
def Expr.places : Expr → List Place
  | .int span _ | .float span _ | .string span _ | .bool span _ | .nil span | .selfRef span
  | .name span _ => [.node span]
  | .unary span _ operand => .node span :: operand.places
  | .binary span left _ right => .node span :: (left.places ++ right.places)
  | .call span callee args => .call span :: (callee.places ++ Expr.placesOfArgs args)
  | .member span object member => .node span :: .name member.span :: object.places
  | .assignName span target value => .node span :: .name target.span :: value.places
  | .assignMember span object member value =>
    .node span :: .name member.span :: (object.places ++ value.places)
  | .lambda span f => .node span :: f.places

/-- The places of arguments. -/
def Expr.placesOfArgs : List Expr → List Place
  | [] => []
  | e :: es => e.places ++ Expr.placesOfArgs es

/-- The places of a function, which is one of them. -/
def Lambda.places : Lambda → List Place
  | .mk params body span => .function (.mk params body span) :: body.places

/-- The places of a function with a name. -/
def Definition.places : Definition → List Place
  | .mk _ f => f.places

/-- The places of methods. -/
def Definition.placesOfMethods : List Definition → List Place
  | [] => []
  | d :: ds => d.places ++ Definition.placesOfMethods ds

/-- The places of a block. -/
def Block.places : Block → List Place
  | .mk stmts _ => Stmt.placesOfStmts stmts

/-- The places of a conditional. -/
def Conditional.places : Conditional → List Place
  | .mk condition thenBlock otherwise _ =>
    condition.places ++ (thenBlock.places ++ otherwise.places)

/-- The places of the other branch of a conditional. -/
def ElseBranch.places : ElseBranch → List Place
  | .absent => []
  | .block body => body.places
  | .elseIf next => next.places

/-- The places of a statement. -/
def Stmt.places : Stmt → List Place
  | .define d => d.places
  | .declareClass _ methods _ => Definition.placesOfMethods methods
  | .conditional c => c.places
  | .giveBack none _ => []
  | .giveBack (some e) _ => e.places
  | .load paths _ => paths.map (.path ·.span)
  | .package _ _ => []
  | .block body => body.places
  | .expr e => e.places

/-- The places of statements. -/
def Stmt.placesOfStmts : List Stmt → List Place
  | [] => []
  | s :: rest => s.places ++ Stmt.placesOfStmts rest

end

/-- The places of a program. -/
def Program.places (p : Program) : List Place := Stmt.placesOfStmts p.stmts

/-- The place of an expression itself is one of its places. -/
theorem Expr.exists_place (e : Expr) : ∃ place ∈ e.places, place.span = e.span := by
  cases e <;> exact ⟨_, List.mem_cons_self, rfl⟩

/-- What stands in the body of a function is one of its places. -/
theorem Lambda.placesOfStmts_body_subset (f : Lambda) :
    Stmt.placesOfStmts f.body.stmts ⊆ f.places := by
  obtain ⟨params, ⟨stmts, inner⟩, span⟩ := f
  exact List.subset_cons_self _ _

/-- Parentheses move the place of an expression, not those inside it. -/
theorem Expr.exists_places_withSpan (e : Expr) : ∃ inner, (∀ place ∈ inner, place ∈ e.places) ∧
    ∀ span, ∃ place : Place, place.span = span ∧ (e.withSpan span).places = place :: inner := by
  cases e <;> exact ⟨_, fun _ => List.mem_cons_of_mem _, fun span => ⟨_, rfl, rfl⟩⟩

/-! ### Regions -/

/-- A set of spans that holds with two spans the least one that covers both. -/
structure Region where
  Has : Span → Prop
  merge {a b : Span} : Has a → Has b → Has (a.merge b)

namespace Region

/-- All spans. -/
def everywhere : Region := ⟨fun _ => True, fun _ _ => trivial⟩

variable (R : Region)

/-- The tokens stand in the region. -/
def HasTokens (tokens : List Token) : Prop := ∀ token ∈ tokens, R.Has token.span

/-- The places lie in the region. -/
def HasPlaces (places : List Place) : Prop := ∀ place ∈ places, R.Has place.span

variable {R}

@[simp] theorem hasTokens_nil : R.HasTokens [] := by simp [HasTokens]

@[simp] theorem hasTokens_cons {token : Token} {tokens : List Token} :
    R.HasTokens (token :: tokens) ↔ R.Has token.span ∧ R.HasTokens tokens :=
  List.forall_mem_cons

@[simp] theorem hasTokens_append {tokens tokens' : List Token} :
    R.HasTokens (tokens ++ tokens') ↔ R.HasTokens tokens ∧ R.HasTokens tokens' :=
  List.forall_mem_append

@[simp] theorem hasPlaces_nil : R.HasPlaces [] := by simp [HasPlaces]

@[simp] theorem hasPlaces_cons {place : Place} {places : List Place} :
    R.HasPlaces (place :: places) ↔ R.Has place.span ∧ R.HasPlaces places :=
  List.forall_mem_cons

@[simp] theorem hasPlaces_append {places places' : List Place} :
    R.HasPlaces (places ++ places') ↔ R.HasPlaces places ∧ R.HasPlaces places' :=
  List.forall_mem_append

theorem HasPlaces.span {e : Expr} (h : R.HasPlaces e.places) : R.Has e.span := by
  obtain ⟨place, hplace, hspan⟩ := e.exists_place
  rw [← hspan]
  exact h place hplace

theorem HasPlaces.functionSpan {f : Lambda} (h : R.HasPlaces f.places) : R.Has f.span := by
  obtain ⟨params, body, span⟩ := f
  exact (hasPlaces_cons.1 h).1

theorem HasPlaces.withSpan {e : Expr} {span : Span} (h : R.HasPlaces e.places)
    (hspan : R.Has span) : R.HasPlaces (e.withSpan span).places := by
  obtain ⟨inner, hinner, hwith⟩ := e.exists_places_withSpan
  obtain ⟨place, rfl, hplaces⟩ := hwith span
  rw [hplaces, hasPlaces_cons]
  exact ⟨hspan, fun place hplace => h place (hinner place hplace)⟩

end Region

/-! ### Derivations -/

/-- The construct lies in the region: its places do, and where it has a span of its own, that does as
well. -/
def Phrase.Within (R : Region) : Phrase → Prop
  | expr e | chain _ e => R.HasPlaces e.places
  | args es => R.HasPlaces (Expr.placesOfArgs es)
  | function _ f => R.HasPlaces f.places
  | methods ds => R.HasPlaces (Definition.placesOfMethods ds)
  | block b => R.Has b.span ∧ R.HasPlaces b.places
  | stmts ss => R.HasPlaces (Stmt.placesOfStmts ss)
  | conditional c => R.HasPlaces c.places
  | otherwise branch => R.HasPlaces branch.places
  | stmt s => R.HasPlaces s.places

theorem Token.atom?_places {token : Token} {e : Expr} (h : token.atom? = some e) :
    e.places = [.node token.span] := by
  unfold Token.atom? at h
  split at h <;> cases h <;> rfl

theorem Separated.hasPlaces {R : Region} {earlier paths : List ModulePath} {tokens : List Token}
    (h : Separated ModulePath.IsPath earlier tokens paths) (htokens : R.HasTokens tokens) :
    R.HasPlaces (paths.map (.path ·.span)) := by
  induction h with
  | nil => exact Region.hasPlaces_nil
  | last hpath =>
    rw [hpath, Region.hasTokens_cons] at htokens
    exact Region.hasPlaces_cons.2 ⟨htokens.1, Region.hasPlaces_nil⟩
  | cons hpath _ ih =>
    rw [hpath, Region.hasTokens_append, Region.hasTokens_cons, Region.hasTokens_cons] at htokens
    exact Region.hasPlaces_cons.2 ⟨htokens.1.1, ih htokens.2.2⟩

/-- Every construct lies where its tokens stand: its spans are theirs, and the least ones that cover
some of them. The induction is on the derivation. -/
theorem Derives.within {R : Region} {n : Nat} {tokens : List Token} {phrase : Phrase}
    (h : Derives n tokens phrase) (htokens : R.HasTokens tokens) : phrase.Within R := by
  induction h with
  | atom hatom =>
    rw [Phrase.Within, Token.atom?_places hatom]
    exact Region.hasPlaces_cons.2 ⟨(Region.hasTokens_cons.1 htokens).1, Region.hasPlaces_nil⟩
  | unary _ ih =>
    simp only [Region.hasTokens_cons] at htokens
    have hoperand := ih htokens.2
    exact Region.hasPlaces_cons.2 ⟨R.merge htokens.1 hoperand.span, hoperand⟩
  | group _ ih =>
    simp only [Region.hasTokens_cons, Region.hasTokens_append] at htokens
    exact (ih htokens.2.1).withSpan (R.merge htokens.1 htokens.2.2.1)
  | lambda _ ih =>
    have hfunction := ih htokens
    exact Region.hasPlaces_cons.2 ⟨hfunction.functionSpan, hfunction⟩
  | binary _ _ ihl ihr =>
    simp only [Region.hasTokens_cons, Region.hasTokens_append] at htokens
    have hleft := ihl htokens.1
    have hright := ihr htokens.2.2
    exact Region.hasPlaces_cons.2
      ⟨R.merge hleft.span hright.span, Region.hasPlaces_append.2 ⟨hleft, hright⟩⟩
  | call _ _ ihcallee ihargs =>
    simp only [Region.hasTokens_cons, Region.hasTokens_append] at htokens
    have hcallee := ihcallee htokens.1
    exact Region.hasPlaces_cons.2 ⟨R.merge hcallee.span htokens.2.2.2.1,
      Region.hasPlaces_append.2 ⟨hcallee, ihargs htokens.2.2.1⟩⟩
  | member _ ih =>
    simp only [Region.hasTokens_cons, Region.hasTokens_append] at htokens
    have hobject := ih htokens.1
    exact Region.hasPlaces_cons.2 ⟨R.merge hobject.span htokens.2.2.1,
      Region.hasPlaces_cons.2 ⟨htokens.2.2.1, hobject⟩⟩
  | assignName _ _ ihtarget ihvalue =>
    simp only [Region.hasTokens_cons, Region.hasTokens_append] at htokens
    have htarget := ihtarget htokens.1
    have hvalue := ihvalue htokens.2.2
    exact Region.hasPlaces_cons.2 ⟨R.merge htarget.span hvalue.span,
      Region.hasPlaces_cons.2 ⟨htarget.span, hvalue⟩⟩
  | assignMember _ _ ihtarget ihvalue =>
    simp only [Region.hasTokens_cons, Region.hasTokens_append] at htokens
    -- The target is a member, whose object and name are kept.
    have htarget := ihtarget htokens.1
    simp only [Phrase.Within, Expr.places, Region.hasPlaces_cons] at htarget
    have hvalue := ihvalue htokens.2.2
    exact Region.hasPlaces_cons.2
      ⟨R.merge (R.merge htarget.2.2.span htarget.2.1) hvalue.span,
        Region.hasPlaces_cons.2 ⟨htarget.2.1, Region.hasPlaces_append.2 ⟨htarget.2.2, hvalue⟩⟩⟩
  | expr _ ih => exact ih htokens
  | noArgs => exact Region.hasPlaces_nil
  | lastArg _ ih => exact Region.hasPlaces_append.2 ⟨ih htokens, Region.hasPlaces_nil⟩
  | arg _ _ ih ihrest =>
    simp only [Region.hasTokens_cons, Region.hasTokens_append] at htokens
    exact Region.hasPlaces_append.2 ⟨ih htokens.1, ihrest htokens.2.2⟩
  | function _ _ ih =>
    simp only [Region.hasTokens_cons, Region.hasTokens_append] at htokens
    have hbody := ih htokens.2.2.2.2.2
    exact Region.hasPlaces_cons.2 ⟨R.merge htokens.1 hbody.1, hbody.2⟩
  | noMethods => exact Region.hasPlaces_nil
  | method _ _ _ ih ihrest =>
    simp only [Region.hasTokens_append] at htokens
    exact Region.hasPlaces_append.2 ⟨ih htokens.1.1, ihrest htokens.2⟩
  | block _ ih =>
    simp only [Region.hasTokens_cons, Region.hasTokens_append] at htokens
    exact ⟨R.merge htokens.1 htokens.2.2.1, ih htokens.2.1⟩
  | noStmts => exact Region.hasPlaces_nil
  | stmts _ _ _ ih ihrest =>
    simp only [Region.hasTokens_append] at htokens
    exact Region.hasPlaces_append.2 ⟨ih htokens.1.1, ihrest htokens.2⟩
  | conditional _ _ _ ihcondition ihblock ihelse =>
    simp only [Region.hasTokens_cons, Region.hasTokens_append] at htokens
    -- The span of a conditional is no place: nothing fails there.
    obtain ⟨-, hcondition, hblock, helse⟩ := htokens
    exact Region.hasPlaces_append.2 ⟨ihcondition hcondition,
      Region.hasPlaces_append.2 ⟨(ihblock hblock).2, ihelse helse⟩⟩
  | noElse => exact Region.hasPlaces_nil
  | elseBlock _ ih => exact (ih (Region.hasTokens_cons.1 htokens).2).2
  | elseIf _ ih => exact ih (Region.hasTokens_cons.1 htokens).2
  | define _ ih => exact ih htokens
  | declareClass _ ih =>
    simp only [Region.hasTokens_cons, Region.hasTokens_append] at htokens
    exact ih htokens.2.2.2.1
  | runConditional _ ih => exact ih htokens
  | giveNothing => exact Region.hasPlaces_nil
  | giveBack _ ih => exact ih (Region.hasTokens_cons.1 htokens).2
  | load hpaths _ =>
    simp only [Region.hasTokens_cons, Region.hasTokens_append] at htokens
    exact hpaths.hasPlaces htokens.2.2.1
  | runBlock _ ih => exact (ih htokens).2
  | evaluate _ ih => exact ih htokens

/-- The places of a program lie in every region that holds its tokens. -/
theorem Program.Accounted.hasPlaces {R : Region} {tokens : List Token} {p : Program}
    (h : p.Accounted tokens) (htokens : R.HasTokens tokens) : R.HasPlaces p.places := by
  obtain ⟨stmts, span⟩ := p
  change Repeated (Terminated TopLevel) tokens stmts at h
  change R.HasPlaces (Stmt.placesOfStmts stmts)
  induction h with
  | nil => exact Region.hasPlaces_nil
  | cons hitem _ ih =>
    rw [Region.hasTokens_append] at htokens
    refine Region.hasPlaces_append.2 ⟨?_, ih htokens.2⟩
    obtain ⟨ts, semi, rfl, hstmt, -⟩ := hitem
    cases hstmt with
    | package => exact Region.hasPlaces_nil
    | stmt hstmt => exact hstmt.within (Region.hasTokens_append.1 htokens.1).1

end ScriptLang
