import Mathlib.Data.List.Basic
import ScriptLang.Interactive.Completeness
import ScriptLang.Proofs.Syntax.Brackets
import ScriptLang.Proofs.Token.Separators

/-!
# Whether an input goes on, by its tokens

The test for an input that goes on walks over the characters of a text and knows strings and comments
only by their delimiters. Here it is set against the reader of tokens: both see the same strings and
comments, so the test counts the bracket tokens.

## Main definitions

* `IsUnterminated`: the wordings of the faults in which a text ends too early

## Main results

* `goesOn_of_tokensFrom`: a text with tokens goes on if they leave a bracket open
* `goesOn_of_unterminated`: a text that ends inside a string or a comment goes on
* `isIncomplete_agrees`: the test in terms of the tokens, and of the programs, of a text
-/

namespace ScriptLang

open Text

/-! ### White space and comments -/

/-- A character that neither is a bracket nor begins a string or a comment. -/
structure IsPlain (c : Char) : Prop where
  notQuote : c ≠ '"'
  notSlash : c ≠ '/'
  notBracket : bracketWeight c = 0

/-- The characters of a class are plain if the six that are not are left out of it. -/
theorem isPlain_of_class {c : Char} {among : Char → Bool}
    (h : ['"', '/', '{', '(', '}', ')'].any among = false) (hc : among c = true) : IsPlain c := by
  have hne : ∀ d ∈ ['"', '/', '{', '(', '}', ')'], c ≠ d := by
    rintro d hd rfl
    exact List.any_eq_false.1 h c hd hc
  refine ⟨hne '"' (by decide), hne '/' (by decide), ?_⟩
  rw [bracketWeight, if_neg, if_neg]
  · exact not_or.2 ⟨hne '}' (by decide), hne ')' (by decide)⟩
  · exact not_or.2 ⟨hne '{' (by decide), hne '(' (by decide)⟩

theorem goesOn_cons {c : Char} {rest : List Char} (depth : Int) (hquote : c ≠ '"')
    (hslash : c ≠ '/') : goesOn depth (c :: rest) = goesOn (depth + bracketWeight c) rest := by
  rw [goesOn]
  · exact hquote
  · intro tail heq
    exact absurd heq hslash
  · intro tail heq
    exact absurd heq hslash

theorem goesOn_plain (word rest : List Char) (depth : Int) (hword : ∀ c ∈ word, IsPlain c) :
    goesOn depth (word ++ rest) = goesOn depth rest := by
  induction word with
  | nil => rfl
  | cons c word ih =>
    obtain ⟨hc, hword⟩ := List.forall_mem_cons.1 hword
    rw [List.cons_append, goesOn_cons depth hc.notQuote hc.notSlash, hc.notBracket, Int.add_zero,
      ih hword]

/-- Plain characters in front do not matter. -/
theorem goesOn_dropWhile {among : Char → Bool} (text : List Char) (depth : Int)
    (h : ∀ c, among c = true → IsPlain c) :
    goesOn depth (text.dropWhile among) = goesOn depth text := by
  have hfront : ∀ c ∈ text.takeWhile among, IsPlain c :=
    fun c hc => h c (List.all_eq_true.1 List.all_takeWhile c hc)
  rw [← goesOn_plain _ (text.dropWhile among) depth hfront, List.takeWhile_append_dropWhile]

theorem isPlain_of_isBlank {c : Char} (hc : isBlank c = true) : IsPlain c :=
  isPlain_of_class (by decide) hc

/-- Whether a text goes on, once the separators in front are skipped. They end in a fault only where
a comment in delimiters is open. -/
def goesOnAfter (depth : Int) : Except Diagnostic (Position × List Char) → Bool
  | .ok (_, rest) => goesOn depth rest
  | .error _ => true

mutual

/-- Separators are skipped by both. The three statements follow the recursion of the scanner. -/
theorem goesOn_eq_skipTrivia (depth : Int) (p : Position) (text : List Char) :
    goesOn depth text = goesOnAfter depth (skipTrivia p text) := by
  unfold skipTrivia
  split
  · rfl
  · rw [goesOn]
    exact goesOnInLine_eq_skipLine depth _ _
  · rw [goesOn]
    exact goesOnInBlock_eq_skipBlock depth p _ _
  · next c text _ _ =>
    split
    · next hc =>
      rw [← goesOn_eq_skipTrivia depth _ text]
      exact goesOn_plain [c] text depth (by simpa using isPlain_of_isBlank hc)
    · rfl
termination_by text.length

theorem goesOnInLine_eq_skipLine (depth : Int) (p : Position) (text : List Char) :
    goesOnInLine depth text = goesOnAfter depth (skipLine p text) := by
  unfold skipLine
  split
  · rw [goesOnInLine, goesOnAfter, goesOn]
  · next c text =>
    split
    · next hc =>
      rw [hc, goesOnInLine]
      exact goesOn_eq_skipTrivia depth _ text
    · next hc =>
      rw [goesOnInLine]
      · exact goesOnInLine_eq_skipLine depth _ text
      · exact hc
termination_by text.length

theorem goesOnInBlock_eq_skipBlock (depth : Int) (opened p : Position) (text : List Char) :
    goesOnInBlock depth text = goesOnAfter depth (skipBlock opened p text) := by
  unfold skipBlock
  split
  · rfl
  · rw [goesOnInBlock]
    exact goesOn_eq_skipTrivia depth _ _
  · next c text hend =>
    rw [goesOnInBlock]
    · exact goesOnInBlock_eq_skipBlock depth opened _ text
    · exact hend
termination_by text.length

end

/-! ### Faults

Only two faults say that a text ends too early, and no other fault has their wording. -/

/-- The wordings of the faults in which a text ends too early. -/
def IsUnterminated (message : String) : Prop :=
  message = Fault.unterminatedString.message ∨ message = Fault.unterminatedComment.message

/-- A wording that begins otherwise is another fault. -/
theorem not_isUnterminated {message a rest : String} (h : message = a ++ rest)
    (hlength : 3 ≤ a.toList.length) (ha : a.toList.take 3 ≠ ['u', 'n', 't']) :
    ¬IsUnterminated message := by
  intro hmessage
  have htake : message.toList.take 3 = ['u', 'n', 't'] := by
    obtain h | h := hmessage
    · rw [h]
      rfl
    · rw [h]
      rfl
  rw [h, String.toList_append, List.take_append_of_le_length hlength] at htake
  exact ha htake

theorem not_isUnterminated_invalidEscape (c : Char) :
    ¬IsUnterminated (Fault.invalidEscape c).message :=
  not_isUnterminated (a := "invalid escape sequence '\\") String.append_assoc (by decide) (by decide)

theorem not_isUnterminated_unexpectedCharacter (c : Char) :
    ¬IsUnterminated (Fault.unexpectedCharacter c).message :=
  not_isUnterminated (a := "unexpected character '") String.append_assoc (by decide) (by decide)

theorem not_isUnterminated_integerLiteralRange (digits : String) :
    ¬IsUnterminated (Fault.integerLiteralRange digits).message :=
  not_isUnterminated (a := "integer literal '") String.append_assoc (by decide) (by decide)

/-! ### Tokens -/

theorem goesOn_of_scanString {opened p q : Position} {read text rest : List Char} {x : Lexeme}
    (depth : Int) (h : scanString opened p read text = .ok (x, q, rest)) :
    goesOnInString depth text = goesOn (depth + x.bracketWeight) rest := by
  fun_induction scanString opened p read text with
  | case1 => cases h
  | case2 p read text =>
    simp only [Except.ok.injEq, Prod.mk.injEq] at h
    obtain ⟨rfl, -, rfl⟩ := h
    rw [goesOnInString, Lexeme.bracketWeight_string, Int.add_zero]
  | case3 => cases h
  | case4 p read c text d _ ih =>
    -- After a backslash both pass over a character, which may be a quote.
    rw [goesOnInString]
    exact ih h
  | case5 => cases h
  | case6 p read c text hquote hlast hescape ih =>
    rw [goesOnInString]
    · exact ih h
    all_goals grind

/-- A text that ends inside a string goes on, also where a backslash ends it. -/
theorem goesOnInString_of_unterminated {opened p : Position} {read text : List Char}
    {d : Diagnostic} (depth : Int) (h : scanString opened p read text = .error d)
    (hd : IsUnterminated d.message) : goesOnInString depth text = true := by
  fun_induction scanString opened p read text with
  | case1 => rfl
  | case2 => cases h
  | case3 => rfl
  | case4 p read c text d _ ih =>
    rw [goesOnInString]
    exact ih h
  | case5 p read c text hc =>
    cases h
    exact absurd hd (not_isUnterminated_invalidEscape c)
  | case6 p read c text hquote hlast hescape ih =>
    rw [goesOnInString]
    · exact ih h
    all_goals grind

theorem isPlain_of_isDigit {c : Char} (hc : c.isDigit = true) : IsPlain c :=
  isPlain_of_class (by decide) hc

theorem isPlain_of_isNamePart {c : Char} (hc : isNamePart c = true) : IsPlain c :=
  isPlain_of_class (by decide) hc

theorem isPlain_point : IsPlain '.' := ⟨by decide, by decide, rfl⟩

theorem integerLiteral_bracketWeight {p q : Position} {digits rest rest' : List Char} {x : Lexeme}
    (h : integerLiteral p digits rest = .ok (x, q, rest')) : x.bracketWeight = 0 := by
  unfold integerLiteral at h
  split at h
  · cases h
    rfl
  · cases h

/-- A number is made of digits and points. -/
theorem goesOn_of_scanNumber {p q : Position} {text rest : List Char} {x : Lexeme} (depth : Int)
    (h : scanNumber p text = .ok (x, q, rest)) :
    goesOn depth text = goesOn (depth + x.bracketWeight) rest := by
  rw [← goesOn_dropWhile text depth fun _ => isPlain_of_isDigit]
  unfold scanNumber at h
  split at h
  · next more heq =>
    dsimp only at h
    split at h
    · -- No digit follows the point, which is left to the next token.
      rw [integerLiteral_bracketWeight h, (integerLiteral_eq_append h).1, heq, Int.add_zero]
    · simp only [Except.ok.injEq, Prod.mk.injEq] at h
      obtain ⟨rfl, -, rfl⟩ := h
      have hpoint : ∀ c ∈ ['.'], IsPlain c := List.forall_mem_singleton.2 isPlain_point
      rw [heq, Lexeme.bracketWeight_float, Int.add_zero,
        goesOn_dropWhile more depth fun _ => isPlain_of_isDigit]
      exact goesOn_plain ['.'] more depth hpoint
  · rw [integerLiteral_bracketWeight h, (integerLiteral_eq_append h).1, Int.add_zero]

theorem ofWord_bracketWeight (word : String) : (Lexeme.ofWord word).bracketWeight = 0 := by
  unfold Lexeme.ofWord
  split <;> rfl

theorem goesOn_of_scanWord (p : Position) (text : List Char) (depth : Int) :
    goesOn depth text =
      goesOn (depth + (scanWord p text).1.bracketWeight) (scanWord p text).2.2 := by
  rw [scanWord, ofWord_bracketWeight, Int.add_zero]
  exact (goesOn_dropWhile text depth fun _ => isPlain_of_isNamePart).symm

/-- A sign counts by its bracket. Only `/` could begin a comment. -/
theorem goesOn_sign (s : Sign) {rest : List Char} (depth : Int)
    (h : ¬BeginsComment (s.chars ++ rest)) :
    goesOn depth (s.chars ++ rest) = goesOn (depth + (Lexeme.sign s).bracketWeight) rest := by
  by_cases hs : s = .slash
  · subst hs
    rw [Sign.chars, List.singleton_append] at h ⊢
    rw [goesOn]
    · rfl
    · simp
    -- With another slash or a star it would begin a comment.
    · rintro tail - rfl
      exact h (.inl ⟨tail, rfl⟩)
    · rintro tail - rfl
      exact h (.inr ⟨tail, rfl⟩)
  · cases s <;> first
      | exact absurd rfl hs
      | simp [Sign.chars, goesOn, bracketWeight, Lexeme.bracketWeight]

/-- A token counts by its bracket. -/
theorem goesOn_of_scanLexeme {p q : Position} {c : Char} {text rest : List Char} {x : Lexeme}
    (depth : Int) (hcomment : ¬BeginsComment (c :: text))
    (h : scanLexeme p c text = .ok (x, q, rest)) :
    goesOn depth (c :: text) = goesOn (depth + x.bracketWeight) rest := by
  unfold scanLexeme at h
  split at h
  · next hc =>
    rw [hc, goesOn]
    exact goesOn_of_scanString depth h
  split at h
  · exact goesOn_of_scanNumber depth h
  split at h
  · have hword := goesOn_of_scanWord p (c :: text) depth
    rw [Except.ok.inj h] at hword
    exact hword
  split at h
  · next s more hs =>
    simp only [Except.ok.injEq, Prod.mk.injEq] at h
    obtain ⟨rfl, -, rfl⟩ := h
    rw [Sign.eq_append_of_scan? hs] at hcomment ⊢
    exact goesOn_sign s depth hcomment
  · cases h

/-- Of all tokens only a string can be unterminated. -/
theorem goesOn_of_scanLexeme_unterminated {p : Position} {c : Char} {text : List Char}
    {d : Diagnostic} (depth : Int) (h : scanLexeme p c text = .error d)
    (hd : IsUnterminated d.message) : goesOn depth (c :: text) = true := by
  have hinteger (digits rest : List Char) (h : integerLiteral p digits rest = .error d) : False := by
    unfold integerLiteral at h
    split at h
    · cases h
    · cases h
      exact not_isUnterminated_integerLiteralRange _ hd
  unfold scanLexeme at h
  split at h
  · next hc =>
    rw [hc, goesOn]
    exact goesOnInString_of_unterminated depth h hd
  split at h
  · -- A number can only be too great.
    exfalso
    unfold scanNumber at h
    split at h
    · dsimp only at h
      split at h
      · exact hinteger _ _ h
      · cases h
    · exact hinteger _ _ h
  split at h
  · cases h
  split at h
  · cases h
  · cases h
    exact absurd hd (not_isUnterminated_unexpectedCharacter c)

/-! ### Texts -/

/-- A text with tokens goes on if they leave a bracket open. The induction is on the tokens. -/
theorem goesOn_of_tokensFrom {p finish : Position} {text : List Char} {tokens : List Token}
    (depth : Int) (h : tokensFrom p text = .ok (tokens, finish)) :
    goesOn depth text = decide (0 < depth + openBrackets tokens) := by
  fun_induction tokensFrom p text generalizing depth tokens with
  | case1 => cases h
  | case2 p text stop hskip =>
    cases h
    rw [goesOn_eq_skipTrivia depth p text, hskip]
    simp [goesOnAfter, goesOn]
  | case3 => cases h
  | case4 => cases h
  | case5 p text start c rest hskip lexeme stop rest' hscan tokens finish htokens ih =>
    cases h
    -- The bracket of the first token counts as open for the tokens after it.
    have hstart := (skips_of_skipTrivia hskip).significant.notComment
    rw [goesOn_eq_skipTrivia depth p text, hskip, goesOnAfter,
      goesOn_of_scanLexeme depth hstart hscan, ih _ htokens, openBrackets_cons, Int.add_assoc]

/-- A text that ends inside a string or a comment goes on. -/
theorem goesOn_of_unterminated {p : Position} {text : List Char} {d : Diagnostic} (depth : Int)
    (h : tokensFrom p text = .error d) (hd : IsUnterminated d.message) :
    goesOn depth text = true := by
  fun_induction tokensFrom p text generalizing depth with
  | case1 p text d' hskip =>
    rw [goesOn_eq_skipTrivia depth p text, hskip]
    rfl
  | case2 => cases h
  | case3 p text start c rest hskip d' hscan =>
    cases h
    rw [goesOn_eq_skipTrivia depth p text, hskip, goesOnAfter]
    exact goesOn_of_scanLexeme_unterminated depth hscan hd
  | case4 p text start c rest hskip lexeme stop rest' hscan d' htokens ih =>
    cases h
    have hstart := (skips_of_skipTrivia hskip).significant.notComment
    rw [goesOn_eq_skipTrivia depth p text, hskip, goesOnAfter,
      goesOn_of_scanLexeme depth hstart hscan]
    exact ih _ htokens
  | case5 => cases h

/-- The test agrees with the readers of tokens and of programs. Where a text has tokens, it goes on
exactly if they have more opening than closing brackets; where it ends inside a string or a comment,
it goes on; and no complete program is withheld. -/
theorem isIncomplete_agrees (text : String) :
    (∀ stream, tokenize text = .ok stream →
      (isIncomplete text = true ↔
        stream.tokens.countP (·.lexeme.closes) < stream.tokens.countP (·.lexeme.opens))) ∧
    (∀ d, tokenize text = .error d →
      d.message = Fault.unterminatedString.message ∨
        d.message = Fault.unterminatedComment.message → isIncomplete text = true) ∧
    ∀ name program, Program.parse ⟨name, text⟩ = .ok program → isIncomplete text = false := by
  have hdecided (stream : TokenStream) (h : tokenize text = .ok stream) :
      isIncomplete text = decide (0 < openBrackets stream.tokens) := by
    obtain ⟨finish, htokens, -⟩ := tokensFrom_of_tokenize h
    rw [isIncomplete, goesOn_of_tokensFrom 0 htokens, Int.zero_add]
  refine ⟨fun stream h => ?_, fun d h hd => ?_, fun name program h => ?_⟩
  · rw [hdecided stream h, decide_eq_true_eq, openBrackets_eq_count]
    omega
  · exact goesOn_of_unterminated 0 (tokensFrom_of_tokenize_error h) hd
  · -- The program accounts for all tokens, and so they are balanced.
    obtain ⟨stream, htokens, hprogram⟩ := Program.exists_ofTokens_of_parse h
    have hbalanced := (Program.ofTokens_accounted hprogram).balanced
    rw [hdecided stream htokens, hbalanced.openBrackets_eq_zero]
    rfl

/-- An open parenthesis and an open string are waited for, an expression that is closed is not. -/
theorem isIncomplete_agrees_group :
    isIncomplete "(1" = true ∧ isIncomplete "\"a" = true ∧ isIncomplete "(1)" = false := by
  have hopen : tokenize "(1" = .ok ⟨[⟨.sign .leftParen, ⟨1, 1⟩, ⟨1, 2⟩⟩,
      ⟨.int 1, ⟨1, 2⟩, ⟨1, 3⟩⟩], ⟨⟨1, 3⟩, ⟨1, 3⟩⟩⟩ := by
    rw [tokenize, tokensFrom_cons rfl rfl (tokensFrom_cons rfl rfl (tokensFrom_end rfl))]
    rfl
  have hstring : tokenize "\"a" = .error (Fault.unterminatedString.at ⟨⟨1, 1⟩, ⟨1, 3⟩⟩) := by
    rw [tokenize, tokensFrom]
    rfl
  have hclosed : tokenize "(1)" = .ok ⟨[⟨.sign .leftParen, ⟨1, 1⟩, ⟨1, 2⟩⟩,
      ⟨.int 1, ⟨1, 2⟩, ⟨1, 3⟩⟩, ⟨.sign .rightParen, ⟨1, 3⟩, ⟨1, 4⟩⟩], ⟨⟨1, 4⟩, ⟨1, 4⟩⟩⟩ := by
    rw [tokenize, tokensFrom_cons rfl rfl (tokensFrom_cons rfl rfl (tokensFrom_cons rfl rfl
      (tokensFrom_end rfl)))]
    rfl
  have hprogram : Program.parse ⟨"input", "(1)"⟩ =
      .ok ⟨[.expr (.int ⟨⟨1, 1⟩, ⟨1, 4⟩⟩ 1)], ⟨⟨1, 1⟩, ⟨1, 4⟩⟩⟩ := by
    rw [Program.parse, hclosed]
    rfl
  exact ⟨((isIncomplete_agrees "(1").1 _ hopen).2 (by decide),
    (isIncomplete_agrees "\"a").2.1 _ hstring (.inl rfl),
    (isIncomplete_agrees "(1)").2.2 "input" _ hprogram⟩

end ScriptLang
