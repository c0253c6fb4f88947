import ScriptLang.Proofs.Syntax.Skeleton
import ScriptLang.Proofs.Syntax.Spans

/-!
# Reserved words are no names

What a program names is never spelled like a reserved word, but for parameters, one of which may be the
word for the receiver. Module paths are strings, so nothing is said of what they end in.

## Main definitions

* `Expr.NameFree`, `Stmt.NameFree`, `Lambda.ParamsFree`: the names that a node has itself
* `Node.NameFree`: the same for any node

## Main results

* `Derives.nameFree`: constructs have no reserved words for names
* `Program.nameFree_of_parse`: nor has any node of a program that is read
-/

namespace ScriptLang

/-- The name that the expression has itself is no reserved word. -/
def Expr.NameFree : Expr → Prop
  | name _ text => Keyword.ofText? text = none
  | member _ _ field => Keyword.ofText? field.name = none
  | assignName _ target _ => Keyword.ofText? target.name = none
  | assignMember _ _ field _ => Keyword.ofText? field.name = none
  | _ => True

/-- The name that the statement has itself is no reserved word. -/
def Stmt.NameFree : Stmt → Prop
  | define d => Keyword.ofText? d.name.name = none
  | declareClass name _ _ => Keyword.ofText? name.name = none
  | _ => True

/-- The parameters have different names, none of which is a reserved word other than that for the
receiver. -/
structure Lambda.ParamsFree (f : Lambda) : Prop where
  nodup : (f.params.map Ident.name).Nodup
  free : ∀ param ∈ f.params, Keyword.ofText? param.name = none ∨ param.name = selfName

/-- The names that the node has itself are no reserved words. -/
def Node.NameFree : Node → Prop
  | expr e => e.NameFree
  | function f => f.ParamsFree
  | stmt s => s.NameFree
  | _ => True

/-- The names that the construct has itself are no reserved words. -/
def Phrase.NameFree : Phrase → Prop
  | expr e | chain _ e => e.NameFree
  | function name? f => (∀ name ∈ name?, Keyword.ofText? name.name = none) ∧ f.ParamsFree
  | stmt s => s.NameFree
  | _ => True

theorem Expr.NameFree.withSpan {e : Expr} (h : e.NameFree) (span : Span) :
    (e.withSpan span).NameFree := by
  cases e <;> exact h

theorem Token.nameFree_of_atom? {token : Token} {e : Expr} (h : token.atom? = some e)
    (hnames : NamesFree [token]) : e.NameFree := by
  unfold Token.atom? at h
  split at h <;> cases h <;> first | trivial | exact (namesFree_cons.1 hnames).1 _ rfl

theorem Separated.free {earlier params : List Ident} {tokens : List Token}
    (h : Separated Ident.IsParameter earlier tokens params) (hnames : NamesFree tokens) :
    ∀ param ∈ params, Keyword.ofText? param.name = none ∨ param.name = selfName := by
  have hitem {earlier : List Ident} {tokens : List Token} {param : Ident}
      (h : param.IsParameter earlier tokens) (hnames : NamesFree tokens) :
      Keyword.ofText? param.name = none ∨ param.name = selfName := by
    obtain ⟨rfl | ⟨-, hself⟩, -⟩ := h
    · exact .inl ((namesFree_cons.1 hnames).1 _ rfl)
    · exact .inr hself
  induction h with
  | nil => exact List.forall_mem_nil _
  | last ha => exact List.forall_mem_singleton.2 (hitem ha hnames)
  | cons ha _ ih =>
    rw [namesFree_append, namesFree_cons] at hnames
    exact List.forall_mem_cons.2 ⟨hitem ha hnames.1, ih hnames.2.2⟩

/-- Constructs have no reserved words for names. The induction is on the derivation: parentheses and
links hand on what stands before them. -/
theorem Derives.nameFree {n : Nat} {tokens : List Token} {phrase : Phrase}
    (h : Derives n tokens phrase) (hnames : NamesFree tokens) : phrase.NameFree := by
  induction h with
  | atom hatom => exact Token.nameFree_of_atom? hatom hnames
  | group _ ih =>
    rw [namesFree_cons, namesFree_append] at hnames
    exact (ih hnames.2.1).withSpan _
  | member =>
    rw [namesFree_append, namesFree_cons, namesFree_cons] at hnames
    exact hnames.2.2.1 _ rfl
  | assignName _ _ ih _ => exact ih (namesFree_append.1 hnames).1
  | assignMember _ _ ih _ => exact ih (namesFree_append.1 hnames).1
  | expr _ ih => exact ih hnames
  | @function n ts ts' name? params body start opened closed hparams _ _ =>
    simp only [namesFree_cons, namesFree_append] at hnames
    obtain ⟨-, hname, -, hts, -⟩ := hnames
    refine ⟨fun name hmem => ?_, hparams.nodup.1, hparams.free hts⟩
    cases hmem
    exact (namesFree_cons.1 hname).1 _ rfl
  | define _ ih => exact (ih hnames).1 _ rfl
  | declareClass =>
    simp only [namesFree_cons] at hnames
    exact hnames.2.1 _ rfl
  | _ => trivial

theorem Node.ReadFrom.nameFree {tokens : List Token} {x : Node} (h : x.ReadFrom tokens)
    (hnames : NamesFree tokens) : x.NameFree := by
  cases x with
  | expr e =>
    obtain ⟨_, he⟩ := h
    exact he.nameFree hnames
  | function f =>
    obtain ⟨_, _, hf⟩ := h
    exact (hf.nameFree hnames).2
  | stmt s =>
    obtain (_ | hs) | ⟨_, hs⟩ := h
    · trivial
    · exact hs.nameFree hnames
    · exact hs.nameFree hnames
  | _ => trivial

/-- No node of a program that is read has a reserved word for a name. -/
theorem Program.nameFree_of_parse {source : SourceUnit} {p : Program} (h : parse source = .ok p)
    {s : Stmt} (hs : s ∈ p.stmts) {x : Node} (hx : (Node.stmt s).Contains x) : x.NameFree := by
  obtain ⟨stream, htokenize, -, hrow⟩ := exists_row_of_parse h
  obtain ⟨finish, htokens, -⟩ := tokensFrom_of_tokenize htokenize
  obtain ⟨used, hsub, hlaid⟩ := hrow.laid _ (List.mem_map_of_mem hs) x hx
  exact hlaid.readFrom.nameFree fun token htoken =>
    tokensFrom_namesFree htokens token (hsub.subset htoken)

end ScriptLang
