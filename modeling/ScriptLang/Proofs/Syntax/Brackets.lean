import ScriptLang.Proofs.Syntax.Acceptance

/-!
# Brackets

An accepted program closes every parenthesis and brace that it opens, in the right order. In
particular it has as many opening as closing ones.

## Main definitions

* `Lexeme.opens`, `Lexeme.closes`: the brackets among the tokens
* `openBrackets`: how many brackets some tokens leave open
* `Balanced`: every bracket is closed by one of its kind

## Main results

* `Derives.balanced`, `Program.Accounted.balanced`: the tokens of a construct, and of a program, are
  balanced
* `Balanced.openBrackets_eq_zero`: what is balanced leaves no bracket open
-/

namespace ScriptLang

/-! ### Counting -/

namespace Lexeme

/-- Whether a token is an opening brace or parenthesis. -/
def opens : Lexeme → Bool
  | sign .leftBrace | sign .leftParen => true
  | _ => false

/-- Whether a token is a closing brace or parenthesis. -/
def closes : Lexeme → Bool
  | sign .rightBrace | sign .rightParen => true
  | _ => false

/-- How a token changes the number of open brackets. -/
def bracketWeight : Lexeme → Int
  | sign .leftBrace | sign .leftParen => 1
  | sign .rightBrace | sign .rightParen => -1
  | _ => 0

@[simp] theorem bracketWeight_string (s : String) : (string s).bracketWeight = 0 := rfl

@[simp] theorem bracketWeight_float (x : Float) : (float x).bracketWeight = 0 := rfl

end Lexeme

/-- How many brackets some tokens leave open; negative if they close too many. -/
def openBrackets : List Token → Int
  | [] => 0
  | token :: tokens => token.lexeme.bracketWeight + openBrackets tokens

@[simp] theorem openBrackets_nil : openBrackets [] = 0 := rfl

@[simp] theorem openBrackets_cons (token : Token) (tokens : List Token) :
    openBrackets (token :: tokens) = token.lexeme.bracketWeight + openBrackets tokens := rfl

@[simp] theorem openBrackets_append (tokens tokens' : List Token) :
    openBrackets (tokens ++ tokens') = openBrackets tokens + openBrackets tokens' := by
  induction tokens with
  | nil => simp
  | cons token tokens ih =>
    rw [List.cons_append, openBrackets_cons, openBrackets_cons, ih, Int.add_assoc]

theorem openBrackets_eq_count (tokens : List Token) :
    openBrackets tokens =
      (tokens.countP (·.lexeme.opens) : Int) - tokens.countP (·.lexeme.closes) := by
  induction tokens with
  | nil => rfl
  | cons token tokens ih =>
    have hweight : token.lexeme.bracketWeight =
        (if token.lexeme.opens then 1 else 0) - (if token.lexeme.closes then 1 else 0) := by
      unfold Lexeme.bracketWeight Lexeme.opens Lexeme.closes
      split <;> simp_all
    rw [openBrackets_cons, List.countP_cons, List.countP_cons, ih, hweight]
    split <;> split <;> push_cast <;> omega

/-! ### Matching -/

/-- Every bracket is closed by one of its kind, and no other bracket is open then. -/
inductive Balanced : List Token → Prop where
  | nil : Balanced []
  | plain {token : Token} {rest : List Token} : token.lexeme.bracketWeight = 0 → Balanced rest →
    Balanced (token :: rest)
  | parens {opened closed : Span} {inner rest : List Token} : Balanced inner → Balanced rest →
    Balanced (⟨.sign .leftParen, opened⟩ :: (inner ++ ⟨.sign .rightParen, closed⟩ :: rest))
  | braces {opened closed : Span} {inner rest : List Token} : Balanced inner → Balanced rest →
    Balanced (⟨.sign .leftBrace, opened⟩ :: (inner ++ ⟨.sign .rightBrace, closed⟩ :: rest))

namespace Balanced

variable {tokens tokens' : List Token}

theorem append (h : Balanced tokens) (h' : Balanced tokens') : Balanced (tokens ++ tokens') := by
  induction h with
  | nil => exact h'
  | plain hplain _ ih => exact .plain hplain ih
  | parens hinner _ _ ih =>
    rw [List.cons_append, List.append_assoc, List.cons_append]
    exact .parens hinner ih
  | braces hinner _ _ ih =>
    rw [List.cons_append, List.append_assoc, List.cons_append]
    exact .braces hinner ih

/-- A token that is no bracket. -/
theorem single {token : Token} (h : token.lexeme.bracketWeight = 0) : Balanced [token] :=
  .plain h .nil

/-- What is balanced leaves no bracket open. -/
theorem openBrackets_eq_zero (h : Balanced tokens) : openBrackets tokens = 0 := by
  induction h with
  | nil => rfl
  | plain hplain _ ih => rw [openBrackets_cons, hplain, ih, Int.add_zero]
  | parens _ _ ihinner ihrest =>
    rw [openBrackets_cons, openBrackets_append, openBrackets_cons, ihinner, ihrest]
    rfl
  | braces _ _ ihinner ihrest =>
    rw [openBrackets_cons, openBrackets_append, openBrackets_cons, ihinner, ihrest]
    rfl

end Balanced

/-! ### Constructs -/

theorem UnaryOp.bracketWeight_sign (op : UnaryOp) : (Lexeme.sign op.sign).bracketWeight = 0 := by
  cases op <;> rfl

theorem BinaryOp.bracketWeight_sign (op : BinaryOp) : (Lexeme.sign op.sign).bracketWeight = 0 := by
  cases op <;> rfl

theorem Token.bracketWeight_atom {token : Token} {e : Expr} (h : token.atom? = some e) :
    token.lexeme.bracketWeight = 0 := by
  unfold Token.atom? at h
  split at h <;> cases h <;> rfl

theorem balanced_nameTokens (name? : Option Ident) : Balanced (nameTokens name?) := by
  cases name? with
  | none => exact .nil
  | some name => exact .single rfl

theorem OptionalSemicolon.balanced {semi : List Token} (h : OptionalSemicolon semi) :
    Balanced semi := by
  cases h with
  | absent => exact .nil
  | present => exact .single rfl

theorem Ident.IsParameter.balanced {earlier : List Ident} {tokens : List Token} {param : Ident}
    (h : Ident.IsParameter earlier tokens param) : Balanced tokens := by
  obtain ⟨rfl | ⟨rfl, -⟩, -⟩ := h
  · exact .single rfl
  · exact .single rfl

theorem ModulePath.IsPath.balanced {earlier : List ModulePath} {tokens : List Token}
    {path : ModulePath} (h : ModulePath.IsPath earlier tokens path) : Balanced tokens := by
  cases h
  exact .single rfl

/-- A list is balanced if its items are, since commas are no brackets. -/
theorem Separated.balanced {α : Type} {item : List α → List Token → α → Prop} {earlier items : List α}
    {tokens : List Token} (hitem : ∀ earlier tokens a, item earlier tokens a → Balanced tokens)
    (h : Separated item earlier tokens items) : Balanced tokens := by
  induction h with
  | nil => exact .nil
  | last ha => exact hitem _ _ _ ha
  | cons ha _ ih => exact (hitem _ _ _ ha).append (.plain rfl ih)

/-- The tokens of a construct are balanced. The induction is on the derivation: a construct that has
an opening bracket has the closing one as well, and what stands between is a construct again. -/
theorem Derives.balanced {n : Nat} {tokens : List Token} {phrase : Phrase}
    (h : Derives n tokens phrase) : Balanced tokens := by
  induction h with
  | atom hatom => exact .single (Token.bracketWeight_atom hatom)
  | @unary _ _ op _ _ _ ih => exact .plain op.bracketWeight_sign ih
  | group _ ih => exact .parens ih .nil
  | lambda _ ih => exact ih
  | @binary _ _ _ _ _ _ op _ _ _ ihl ihr => exact ihl.append (.plain op.bracketWeight_sign ihr)
  | call _ _ ihcallee ihargs => exact ihcallee.append (.parens ihargs .nil)
  | member _ ih => exact ih.append (.plain rfl (.single rfl))
  | assignName _ _ ihtarget ihvalue => exact ihtarget.append (.plain rfl ihvalue)
  | assignMember _ _ ihtarget ihvalue => exact ihtarget.append (.plain rfl ihvalue)
  | expr _ ih => exact ih
  | noArgs => exact .nil
  | lastArg _ ih => exact ih
  | arg _ _ ih ihrest => exact ih.append (.plain rfl ihrest)
  | function hparams _ ih =>
    have hlist := hparams.balanced fun _ _ _ hparam => hparam.balanced
    exact .plain rfl ((balanced_nameTokens _).append (.parens hlist ih))
  | noMethods => exact .nil
  | method _ hsemi _ ih ihrest => exact (ih.append hsemi.balanced).append ihrest
  | block _ ih => exact .braces ih .nil
  | noStmts => exact .nil
  | stmts _ hsemi _ ih ihrest => exact (ih.append hsemi.balanced).append ihrest
  | conditional _ _ _ ihcondition ihblock ihelse =>
    exact .plain rfl (ihcondition.append (ihblock.append ihelse))
  | noElse => exact .nil
  | elseBlock _ ih => exact .plain rfl ih
  | elseIf _ ih => exact .plain rfl ih
  | define _ ih => exact ih
  | declareClass _ ih => exact .plain rfl (.plain rfl (.braces ih .nil))
  | runConditional _ ih => exact ih
  | giveNothing => exact .single rfl
  | giveBack _ ih => exact .plain rfl ih
  | load hpaths _ => exact .plain rfl (.parens (hpaths.balanced fun _ _ _ hpath => hpath.balanced) .nil)
  | runBlock _ ih => exact ih
  | evaluate _ ih => exact ih

/-- The tokens of a program are balanced. -/
theorem Program.Accounted.balanced {tokens : List Token} {p : Program} (h : p.Accounted tokens) :
    Balanced tokens := by
  obtain ⟨stmts, span⟩ := p
  change Repeated (Terminated TopLevel) tokens stmts at h
  induction h with
  | nil => exact .nil
  | cons hitem _ ih =>
    obtain ⟨ts, semi, rfl, hstmt, hsemi⟩ := hitem
    refine Balanced.append ?_ ih
    refine Balanced.append ?_ hsemi.balanced
    cases hstmt with
    | package => exact .plain rfl (.single rfl)
    | stmt hstmt => exact hstmt.balanced

end ScriptLang
