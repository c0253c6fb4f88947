import ScriptLang.Proofs.Syntax.Acceptance
import ScriptLang.Proofs.Syntax.Brackets

/-!
# Nothing is accepted that is not accounted for

Parentheses, commas and semicolons leave no node behind. Without them the tokens of an accepted program
are those that its tree is written with: nothing is dropped, doubled, moved or made up. And the tree is
one that can be written.

## Main definitions

* `Lexeme.isSeparator`, `skeleton`: lexemes without parentheses, commas and semicolons
* `NamesFree`: no name among some tokens is a reserved word
* `Phrase.lexemes`, `Phrase.WellFormed`: how a construct is written, and that it can be

## Main results

* `Derives.skeleton`: the tokens of a construct, but for separators, are how it is written
* `Derives.wellFormed`: a construct that was read can be written
* `Program.ofTokens_skeleton`: both for an accepted program, all of whose tokens are read
-/

namespace ScriptLang

/-! ### Lexemes without separators -/

/-- Whether a lexeme is a parenthesis, a comma or a semicolon. -/
@[simp] def Lexeme.isSeparator : Lexeme → Bool
  | sign .leftParen | sign .rightParen | sign .comma | sign .semicolon => true
  | _ => false

/-- Lexemes without parentheses, commas and semicolons. -/
def skeleton (ls : List Lexeme) : List Lexeme := ls.filter (!·.isSeparator)

@[simp] theorem skeleton_nil : skeleton [] = [] := rfl

@[simp] theorem skeleton_append (ls ls' : List Lexeme) :
    skeleton (ls ++ ls') = skeleton ls ++ skeleton ls' := List.filter_append ..

@[simp] theorem skeleton_cons (l : Lexeme) (ls : List Lexeme) :
    skeleton (l :: ls) = if l.isSeparator then skeleton ls else l :: skeleton ls := by
  rw [skeleton, List.filter_cons]
  cases l.isSeparator <;> rfl

/-- Parentheses are separators, so it does not matter whether an expression needs them. -/
@[simp] theorem skeleton_place (least power : BindingPower) (ls : List Lexeme) :
    skeleton (Expr.place least power ls) = skeleton ls := by
  rw [Expr.place]
  split
  · simp
  · rfl

@[simp] theorem skeleton_commaSeparated (items : List (List Lexeme)) :
    skeleton (commaSeparated items) = skeleton items.flatten := by
  induction items with
  | nil => rfl
  | cons item items ih =>
    cases items with
    | nil => simp [commaSeparated]
    | cons next items =>
      rw [commaSeparated, skeleton_append, skeleton_cons, ih]
      simp

/-! ### Constructs -/

/-- No name among the tokens is a reserved word. -/
def NamesFree (tokens : List Token) : Prop :=
  ∀ token ∈ tokens, ∀ name, token.lexeme = .name name → Keyword.ofText? name = none

theorem namesFree_cons {token : Token} {tokens : List Token} :
    NamesFree (token :: tokens) ↔
      (∀ name, token.lexeme = .name name → Keyword.ofText? name = none) ∧ NamesFree tokens :=
  List.forall_mem_cons

theorem namesFree_append {tokens tokens' : List Token} :
    NamesFree (tokens ++ tokens') ↔ NamesFree tokens ∧ NamesFree tokens' :=
  List.forall_mem_append

namespace Phrase

/-- How a construct is written. -/
@[simp] def lexemes : Phrase → List Lexeme
  | expr e | chain _ e => e.lexemes
  | args es => (Expr.lexemesOfArgs es).flatten
  | function name? f => .keyword .fx :: ((nameTokens name?).map Token.lexeme ++ f.lexemes)
  | methods ds => Definition.lexemesOfMethods ds
  | block b => b.lexemes
  | stmts ss => Stmt.lexemesOfStmts ss
  | conditional c => c.lexemes
  | otherwise branch => branch.lexemes
  | stmt s => s.lexemes

/-- A construct that can be written. -/
def WellFormed : Phrase → Prop
  | expr e | chain _ e => e.WellFormed
  | args es => Expr.WellFormedArgs es
  | function _ f => f.WellFormed
  | methods ds => Definition.WellFormedMethods ds
  | block b => b.WellFormed
  | stmts ss => Stmt.WellFormedStmts ss
  | conditional c => c.WellFormed
  | otherwise branch => branch.WellFormed
  | stmt s => s.WellFormed

end Phrase

@[simp] theorem Expr.lexemes_withSpan (s : Span) (e : Expr) : (e.withSpan s).lexemes = e.lexemes := by
  cases e with
  | bool _ b => cases b <;> rfl
  | _ => rfl

theorem Expr.wellFormed_withSpan {e : Expr} (s : Span) (h : e.WellFormed) :
    (e.withSpan s).WellFormed := by
  cases e <;> exact h

theorem Token.atom?_lexemes {token : Token} {e : Expr} (h : token.atom? = some e) :
    e.lexemes = [token.lexeme] := by
  unfold Token.atom? at h
  split at h <;> cases h <;> rfl

theorem Token.atom?_wellFormed {token : Token} {e : Expr} (h : token.atom? = some e) :
    e.WellFormed := by
  unfold Token.atom? at h
  split at h <;> cases h <;> trivial

theorem OptionalSemicolon.skeleton {semi : List Token} (h : OptionalSemicolon semi) :
    ScriptLang.skeleton (semi.map Token.lexeme) = [] := by
  cases h <;> rfl

/-- A parameter that is no reserved word is written as it was read. -/
theorem Ident.IsParameter.lexemes {earlier : List Ident} {tokens : List Token} {param : Ident}
    (h : param.IsParameter earlier tokens) (hnames : NamesFree tokens) :
    tokens.map Token.lexeme = [param.asParameter] := by
  obtain ⟨rfl | ⟨rfl, hself⟩, -⟩ := h
  · have hfree : Keyword.ofText? param.name = none := (namesFree_cons.1 hnames).1 _ rfl
    have hself : param.name ≠ selfName := by
      intro heq
      rw [heq] at hfree
      exact absurd hfree (by decide +kernel)
    rw [Ident.asParameter, if_neg hself]
    rfl
  · rw [Ident.asParameter, if_pos hself]
    rfl

/-- The tokens of a list are those of its items and the commas between them. -/
theorem Separated.skeleton {α : Type} {item : List α → List Token → α → Prop}
    {written : α → List Lexeme} {earlier items : List α} {tokens : List Token}
    (hitem : ∀ earlier tokens a, item earlier tokens a → NamesFree tokens →
      tokens.map Token.lexeme = written a)
    (h : Separated item earlier tokens items) (hnames : NamesFree tokens) :
    ScriptLang.skeleton (tokens.map Token.lexeme) =
      ScriptLang.skeleton (commaSeparated (items.map written)) := by
  induction h with
  | nil => rfl
  | last ha => simp [hitem _ _ _ ha hnames]
  | cons ha _ ih =>
    rw [namesFree_append, namesFree_cons] at hnames
    have hrest := ih hnames.2.2
    rw [skeleton_commaSeparated] at hrest
    simp [hitem _ _ _ ha hnames.1, hrest]

/-- No two parameters have one name. -/
theorem Separated.nodup {earlier params : List Ident} {tokens : List Token}
    (h : Separated Ident.IsParameter earlier tokens params) :
    (params.map Ident.name).Nodup ∧ ∀ param ∈ params, param.name ∉ earlier.map Ident.name := by
  induction h with
  | nil => exact ⟨List.nodup_nil, List.forall_mem_nil _⟩
  | last ha => exact ⟨by simp, List.forall_mem_singleton.2 ha.2⟩
  | @cons earlier rest _ _ a _ ha _ ih =>
    obtain ⟨hnodup, hnew⟩ := ih
    rw [List.map_append] at hnew
    refine ⟨?_, List.forall_mem_cons.2 ⟨ha.2, fun param hparam hmem => ?_⟩⟩
    · rw [List.map_cons, List.nodup_cons]
      refine ⟨fun hmem => ?_, hnodup⟩
      obtain ⟨param, hparam, hname⟩ := List.mem_map.1 hmem
      exact hnew param hparam (List.mem_append_right _ (by simp [hname]))
    · exact hnew param hparam (List.mem_append_left _ hmem)

/-- A construct that was read can be written. The induction is on the derivation. -/
theorem Derives.wellFormed {n : Nat} {tokens : List Token} {phrase : Phrase}
    (h : Derives n tokens phrase) : phrase.WellFormed := by
  induction h with
  | atom hatom => exact Token.atom?_wellFormed hatom
  | unary _ ih => exact ih
  | group _ ih => exact Expr.wellFormed_withSpan _ ih
  | lambda _ ih => exact ih
  | binary _ _ ihl ihr => exact ⟨ihl, ihr⟩
  | call _ _ ihcallee ihargs => exact ⟨ihcallee, ihargs⟩
  | member _ ih => exact ih
  | assignName _ _ _ ihvalue => exact ihvalue
  | assignMember _ _ ihtarget ihvalue => exact ⟨ihtarget, ihvalue⟩
  | expr _ ih => exact ih
  | noArgs => trivial
  | lastArg _ ih => exact ⟨ih, trivial⟩
  | arg _ _ ih ihrest => exact ⟨ih, ihrest⟩
  | function hparams _ ih => exact ⟨hparams.nodup.1, ih⟩
  | noMethods => trivial
  | method _ _ _ ih ihrest => exact ⟨ih, ihrest⟩
  | block _ ih => exact ih
  | noStmts => trivial
  | stmts _ _ _ ih ihrest => exact ⟨ih, ihrest⟩
  | conditional _ _ _ ihcondition ihblock ihelse => exact ⟨ihcondition, ihblock, ihelse⟩
  | noElse => trivial
  | elseBlock _ ih => exact ih
  | elseIf _ ih => exact ih
  | define _ ih => exact ih
  | declareClass _ ih => exact ih
  | runConditional _ ih => exact ih
  | giveNothing => trivial
  | giveBack _ ih => exact ih
  | load _ hnonempty => exact hnonempty
  | runBlock _ ih => exact ih
  | evaluate _ ih => exact ih

/-- But for separators, the tokens of a construct are what it is written with. The induction is on the
derivation; names must not be reserved, since a parameter is written with the word for the receiver if
it has that name. -/
theorem Derives.skeleton {n : Nat} {tokens : List Token} {phrase : Phrase}
    (h : Derives n tokens phrase) (hnames : NamesFree tokens) :
    ScriptLang.skeleton (tokens.map Token.lexeme) = ScriptLang.skeleton phrase.lexemes := by
  induction h with
  | atom hatom => simp [Token.atom?_lexemes hatom]
  | unary _ ih => simp [Expr.lexemes, ih (namesFree_cons.1 hnames).2]
  | group _ ih =>
    rw [namesFree_cons, namesFree_append] at hnames
    simp [ih hnames.2.1]
  | lambda _ ih => simp [Expr.lexemes, nameTokens, ih hnames]
  | binary _ _ ihl ihr =>
    rw [namesFree_append, namesFree_cons] at hnames
    simp [Expr.lexemes, ihl hnames.1, ihr hnames.2.2]
  | call _ _ ihcallee ihargs =>
    rw [namesFree_append, namesFree_cons, namesFree_append] at hnames
    simp [Expr.lexemes, ihcallee hnames.1, ihargs hnames.2.2.1]
  | member _ ih =>
    rw [namesFree_append] at hnames
    simp [Expr.lexemes, ih hnames.1]
  | assignName _ _ ihtarget ihvalue =>
    rw [namesFree_append, namesFree_cons] at hnames
    simp [Expr.lexemes, ihtarget hnames.1, ihvalue hnames.2.2]
  | assignMember _ _ ihtarget ihvalue =>
    rw [namesFree_append, namesFree_cons] at hnames
    simp [Expr.lexemes, ihtarget hnames.1, ihvalue hnames.2.2]
  | expr _ ih => exact ih hnames
  | noArgs => rfl
  | lastArg _ ih => simp [Expr.lexemesOfArgs, ih hnames]
  | arg _ _ ih ihrest =>
    rw [namesFree_append, namesFree_cons] at hnames
    simp [Expr.lexemesOfArgs, ih hnames.1, ihrest hnames.2.2]
  | function hparams _ ih =>
    simp only [namesFree_cons, namesFree_append] at hnames
    obtain ⟨-, -, -, hfree, -, hbody⟩ := hnames
    have hlist := hparams.skeleton (fun _ _ _ hparam hfree => hparam.lexemes hfree) hfree
    rw [skeleton_commaSeparated] at hlist
    simp [Lambda.lexemes, hlist, ih hbody]
  | noMethods => rfl
  | method _ hsemi _ ih ihrest =>
    rw [namesFree_append, namesFree_append] at hnames
    simp [Definition.lexemesOfMethods, Definition.lexemes, nameTokens, hsemi.skeleton,
      ih hnames.1.1, ihrest hnames.2]
  | block _ ih =>
    rw [namesFree_cons, namesFree_append] at hnames
    simp [Block.lexemes, ih hnames.2.1]
  | noStmts => rfl
  | stmts _ hsemi _ ih ihrest =>
    rw [namesFree_append, namesFree_append] at hnames
    simp [Stmt.lexemesOfStmts, hsemi.skeleton, ih hnames.1.1, ihrest hnames.2]
  | conditional _ _ _ ihcondition ihblock ihelse =>
    rw [namesFree_cons, namesFree_append, namesFree_append] at hnames
    simp [Conditional.lexemes, ihcondition hnames.2.1, ihblock hnames.2.2.1, ihelse hnames.2.2.2]
  | noElse => rfl
  | elseBlock _ ih => simp [ElseBranch.lexemes, ih (namesFree_cons.1 hnames).2]
  | elseIf _ ih => simp [ElseBranch.lexemes, ih (namesFree_cons.1 hnames).2]
  | define _ ih => simp [Stmt.lexemes, Definition.lexemes, nameTokens, ih hnames]
  | declareClass _ ih =>
    simp only [namesFree_cons, namesFree_append] at hnames
    simp [Stmt.lexemes, ih hnames.2.2.2.1]
  | runConditional _ ih => simp [Stmt.lexemes, ih hnames]
  | giveNothing => rfl
  | giveBack _ ih => simp [Stmt.lexemes, ih (namesFree_cons.1 hnames).2]
  | load hpaths _ =>
    rw [namesFree_cons, namesFree_cons, namesFree_append] at hnames
    have hlist := hpaths.skeleton (fun _ _ _ hpath _ => by rw [hpath]) hnames.2.2.1
    simp [Stmt.lexemes, hlist]
  | runBlock _ ih => simp [Stmt.lexemes, ih hnames]
  | evaluate _ ih => simp [Stmt.lexemes, ih hnames]

/-! ### Programs -/

theorem TopLevel.wellFormed {tokens : List Token} {s : Stmt} (h : TopLevel tokens s) :
    s.WellFormed ∨ ∃ name span, s = .package name span := by
  cases h with
  | package => exact .inr ⟨_, _, rfl⟩
  | stmt hstmt => exact .inl hstmt.wellFormed

theorem TopLevel.skeleton {tokens : List Token} {s : Stmt} (h : TopLevel tokens s)
    (hnames : NamesFree tokens) :
    ScriptLang.skeleton (tokens.map Token.lexeme) = ScriptLang.skeleton s.lexemes := by
  cases h with
  | package => rfl
  | stmt hstmt => exact hstmt.skeleton hnames

namespace Program

variable {tokens : List Token} {p : Program}

theorem Accounted.wellFormed (h : p.Accounted tokens) : p.WellFormed := by
  obtain ⟨stmts, span⟩ := p
  change Repeated (Terminated TopLevel) tokens stmts at h
  induction h with
  | nil => exact List.forall_mem_nil _
  | cons hitem _ ih =>
    obtain ⟨ts, semi, rfl, hstmt, -⟩ := hitem
    exact List.forall_mem_cons.2 ⟨hstmt.wellFormed, ih⟩

theorem Accounted.skeleton (h : p.Accounted tokens) (hnames : NamesFree tokens) :
    ScriptLang.skeleton (tokens.map Token.lexeme) = ScriptLang.skeleton p.lexemes := by
  obtain ⟨stmts, span⟩ := p
  change Repeated (Terminated TopLevel) tokens stmts at h
  induction h with
  | nil => rfl
  | cons hitem _ ih =>
    obtain ⟨ts, semi, rfl, hstmt, hsemi⟩ := hitem
    rw [namesFree_append, namesFree_append] at hnames
    have hrest := ih hnames.2
    rw [lexemes] at hrest
    simp [lexemes, Stmt.lexemesOfStmts, hsemi.skeleton, hstmt.skeleton hnames.1.1, hrest]

/-- An accepted program has taken every token, its brackets match, it is a tree that can be written,
and but for parentheses, commas and semicolons the tokens are those it is written with. The names must
not be reserved words, as those of a text never are.

What is asked of a tree comes on top of what every tree has by its type: functions that are declared,
and methods, have a name, those in expressions have none, and assignments are to names and members. -/
theorem ofTokens_skeleton {stream : TokenStream} {p : Program} (hnames : NamesFree stream.tokens)
    (h : ofTokens stream = .ok p) :
    (∃ c, Grammar.program.run { ahead := stream.tokens, finish := stream.finish } = .ok (p, c) ∧
        c.ahead = []) ∧
      Balanced stream.tokens ∧ p.WellFormed ∧
      ScriptLang.skeleton (stream.tokens.map Token.lexeme) = ScriptLang.skeleton p.lexemes := by
  have haccounted := ofTokens_accounted h
  exact ⟨exists_run_of_ofTokens h, haccounted.balanced, haccounted.wellFormed,
    haccounted.skeleton hnames⟩

/-- A call with a comma behind its argument, parentheses that its tree does not need, and no
semicolon: the separators are others than those that the program is written with. -/
theorem ofTokens_skeleton_call :
    ∃ stream p, stream.tokens.map Token.lexeme = [.name "f", .sign .leftParen, .sign .leftParen,
        .int 1, .sign .rightParen, .sign .comma, .sign .rightParen] ∧
      ofTokens stream = .ok p ∧
      p.lexemes = [.name "f", .sign .leftParen, .int 1, .sign .rightParen, .sign .semicolon] ∧
      NamesFree stream.tokens ∧
      (∃ c, Grammar.program.run { ahead := stream.tokens, finish := stream.finish } = .ok (p, c) ∧
        c.ahead = []) ∧
      Balanced stream.tokens ∧ p.WellFormed ∧
      ScriptLang.skeleton (stream.tokens.map Token.lexeme) = ScriptLang.skeleton p.lexemes := by
  let stream : TokenStream := ⟨[.name "f", .sign .leftParen, .sign .leftParen, .int 1,
    .sign .rightParen, .sign .comma, .sign .rightParen].map (Token.mk · .erased), .erased⟩
  have hnames : NamesFree stream.tokens := by
    have hfree : Keyword.ofText? "f" = none := by decide +kernel
    simp [stream, hfree, NamesFree]
  have hprogram : ofTokens stream = .ok ⟨[.expr (.call .erased (.name .erased "f")
      [.int .erased 1])], .erased⟩ := rfl
  exact ⟨stream, _, rfl, hprogram, rfl, hnames, ofTokens_skeleton hnames hprogram⟩

end Program

/-! ### The names of a text

A word that is spelled like a reserved word is that word, so what the parser is told about names holds
of every text. -/

theorem scanString_ne_name {opened p q : Position} {read text rest : List Char} {name : String} :
    scanString opened p read text ≠ .ok (.name name, q, rest) := by
  fun_induction scanString opened p read text with
  | case4 _ _ _ _ _ _ ih => exact ih
  | case6 _ _ _ _ _ _ _ ih => exact ih
  | _ => simp

theorem integerLiteral_ne_name {p q : Position} {digits rest rest' : List Char} {name : String} :
    integerLiteral p digits rest ≠ .ok (.name name, q, rest') := by
  unfold integerLiteral
  split <;> simp

theorem scanNumber_ne_name {p q : Position} {text rest : List Char} {name : String} :
    scanNumber p text ≠ .ok (.name name, q, rest) := by
  unfold scanNumber
  split
  · dsimp only
    split
    · exact integerLiteral_ne_name
    · simp
  · exact integerLiteral_ne_name

theorem Lexeme.free_of_ofWord {word name : String} (h : Lexeme.ofWord word = .name name) :
    Keyword.ofText? name = none := by
  unfold Lexeme.ofWord at h
  split at h
  · cases h
  · next hfree =>
    cases h
    exact hfree

theorem scanLexeme_free {p q : Position} {c : Char} {text rest : List Char} {name : String}
    (h : scanLexeme p c text = .ok (.name name, q, rest)) : Keyword.ofText? name = none := by
  unfold scanLexeme at h
  split at h
  · exact absurd h scanString_ne_name
  split at h
  · exact absurd h scanNumber_ne_name
  split at h
  · simp only [scanWord, Except.ok.injEq, Prod.mk.injEq] at h
    exact Lexeme.free_of_ofWord h.1
  · split at h <;> cases h

theorem tokensFrom_namesFree {p finish : Position} {text : List Char} {tokens : List Token}
    (h : tokensFrom p text = .ok (tokens, finish)) : NamesFree tokens := by
  fun_induction tokensFrom p text generalizing tokens finish with
  | case2 =>
    cases h
    exact List.forall_mem_nil _
  | case5 p text start c rest hskip lexeme stop rest' hscan tokens finish htokens ih =>
    cases h
    refine namesFree_cons.2 ⟨?_, ih htokens⟩
    rintro name rfl
    exact scanLexeme_free hscan
  | _ => cases h

end ScriptLang
