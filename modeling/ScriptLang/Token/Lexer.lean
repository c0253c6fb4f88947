import ScriptLang.Diagnostic.Basic
import ScriptLang.Text.Blank
import ScriptLang.Text.Letter
import ScriptLang.Token.Basic

/-!
# From text to tokens

White space and comments separate tokens and mean nothing else. The first piece of text that is no
token ends the reading with a diagnostic at its place.

Every scanner takes a position and the text from there on, and gives back the position and the text
past what it took.

## Main definitions

* `skipTrivia`: past white space and comments
* `scanLexeme`: past one token
* `tokenize`: the tokens of a text

## Main results

* `skipTrivia_eq_append`, `scanLexeme_eq_append`: what a scanner leaves is an end of the text, and the
  position is counted over what it took
-/

namespace ScriptLang

open Text

/-! ### White space and comments -/

mutual

/-- Past white space and comments. -/
def skipTrivia (p : Position) : List Char → Except Diagnostic (Position × List Char)
  | [] => .ok (p, [])
  | '/' :: '/' :: rest => skipLine ((p.advance '/').advance '/') rest
  | '/' :: '*' :: rest => skipBlock p ((p.advance '/').advance '*') rest
  | c :: rest => if isBlank c then skipTrivia (p.advance c) rest else .ok (p, c :: rest)

/-- Past the rest of a line, inside a comment that the newline ends. -/
def skipLine (p : Position) : List Char → Except Diagnostic (Position × List Char)
  | [] => .ok (p, [])
  | c :: rest => if c = '\n' then skipTrivia (p.advance c) rest else skipLine (p.advance c) rest

/-- Past the end of a comment in delimiters, which was opened at `opened`. -/
def skipBlock (opened p : Position) : List Char → Except Diagnostic (Position × List Char)
  | [] => .error (Fault.unterminatedComment.at ⟨opened, p⟩)
  | '*' :: '/' :: rest => skipTrivia ((p.advance '*').advance '/') rest
  | c :: rest => skipBlock opened (p.advance c) rest

end

/-! ### Strings, numbers and words -/

/-- The character that an escape denotes, given by what follows its backslash. -/
def escaped? : Char → Option Char
  | 'n' => some '\n'
  | 't' => some '\t'
  | 'r' => some '\r'
  | '0' => some '\x00'
  | '\\' => some '\\'
  | '"' => some '"'
  | _ => none

/-- Past the end of a string literal whose quote stands at `opened`, with the text it denotes; `read`
holds the characters read so far, last first. -/
def scanString (opened p : Position) (read : List Char) :
    List Char → Except Diagnostic (Lexeme × Position × List Char)
  | [] => .error (Fault.unterminatedString.at ⟨opened, p⟩)
  | '"' :: rest => .ok (.string (String.ofList read.reverse), p.advance '"', rest)
  -- A backslash that ends the text: the fault stands at it and not at the opening quote.
  | ['\\'] => .error (Fault.unterminatedString.at ⟨p, p.advance '\\'⟩)
  | '\\' :: c :: rest =>
    match escaped? c with
    | some d => scanString opened ((p.advance '\\').advance c) (d :: read) rest
    | none => .error ((Fault.invalidEscape c).at ⟨p, (p.advance '\\').advance c⟩)
  | c :: rest => scanString opened (p.advance c) (c :: read) rest

/-- An integer literal of the given digits, which begins at `p`. -/
def integerLiteral (p : Position) (digits rest : List Char) :
    Except Diagnostic (Lexeme × Position × List Char) :=
  match int64OfInt? (natOfDigits digits) with
  | some n => .ok (.int n, p.after digits, rest)
  | none =>
    .error ((Fault.integerLiteralRange (String.ofList digits)).at ⟨p, p.after digits⟩)

/-- Past a number. A point belongs to it only if a digit follows the point. -/
def scanNumber (p : Position) (text : List Char) :
    Except Diagnostic (Lexeme × Position × List Char) :=
  let whole := text.takeWhile Char.isDigit
  match text.dropWhile Char.isDigit with
  | '.' :: rest =>
    let fraction := rest.takeWhile Char.isDigit
    -- Without a digit behind it the point is a sign of its own, as in `1.x`.
    if fraction = [] then integerLiteral p whole ('.' :: rest)
    else .ok (.float (floatOfDigits whole fraction), p.after (whole ++ '.' :: fraction),
      rest.dropWhile Char.isDigit)
  | rest => integerLiteral p whole rest

/-- Whether a name may begin with a character. -/
def isNameStart (c : Char) : Bool := isLetter c || c == '_'

/-- Whether a name may go on with a character. -/
def isNamePart (c : Char) : Bool := isLetter c || isNumeral c || c == '_'

/-- Past a word. -/
def scanWord (p : Position) (text : List Char) : Lexeme × Position × List Char :=
  let word := text.takeWhile isNamePart
  (Lexeme.ofWord (String.ofList word), p.after word, text.dropWhile isNamePart)

/-! ### Tokens -/

/-- Past the token that begins with the character `c` at `p`. -/
def scanLexeme (p : Position) (c : Char) (rest : List Char) :
    Except Diagnostic (Lexeme × Position × List Char) :=
  if c = '"' then scanString p (p.advance c) [] rest
  else if c.isDigit then scanNumber p (c :: rest)
  else if isNameStart c then .ok (scanWord p (c :: rest))
  else
    match Sign.scan? (c :: rest) with
    | some (s, rest) => .ok (.sign s, p.after s.chars, rest)
    | none => .error ((Fault.unexpectedCharacter c).at ⟨p, p.advance c⟩)

mutual

theorem skipTrivia_eq_append {p q : Position} {text rest : List Char}
    (h : skipTrivia p text = .ok (q, rest)) :
    ∃ taken, text = taken ++ rest ∧ q = p.after taken := by
  unfold skipTrivia at h
  split at h
  · simp only [Except.ok.injEq, Prod.mk.injEq] at h
    exact ⟨[], by simp [h.2], by simp [h.1]⟩
  · obtain ⟨taken, rfl, rfl⟩ := skipLine_eq_append h
    exact ⟨'/' :: '/' :: taken, rfl, rfl⟩
  · obtain ⟨taken, rfl, rfl⟩ := skipBlock_eq_append h
    exact ⟨'/' :: '*' :: taken, rfl, rfl⟩
  · next c text _ _ =>
    split at h
    · obtain ⟨taken, rfl, rfl⟩ := skipTrivia_eq_append h
      exact ⟨c :: taken, rfl, rfl⟩
    · simp only [Except.ok.injEq, Prod.mk.injEq] at h
      exact ⟨[], by simp [h.2], by simp [h.1]⟩
termination_by text.length

theorem skipLine_eq_append {p q : Position} {text rest : List Char}
    (h : skipLine p text = .ok (q, rest)) :
    ∃ taken, text = taken ++ rest ∧ q = p.after taken := by
  unfold skipLine at h
  split at h
  · simp only [Except.ok.injEq, Prod.mk.injEq] at h
    exact ⟨[], by simp [h.2], by simp [h.1]⟩
  · next c text =>
    split at h
    · obtain ⟨taken, rfl, rfl⟩ := skipTrivia_eq_append h
      exact ⟨c :: taken, rfl, rfl⟩
    · obtain ⟨taken, rfl, rfl⟩ := skipLine_eq_append h
      exact ⟨c :: taken, rfl, rfl⟩
termination_by text.length

theorem skipBlock_eq_append {opened p q : Position} {text rest : List Char}
    (h : skipBlock opened p text = .ok (q, rest)) :
    ∃ taken, text = taken ++ rest ∧ q = p.after taken := by
  unfold skipBlock at h
  split at h
  · simp at h
  · obtain ⟨taken, rfl, rfl⟩ := skipTrivia_eq_append h
    exact ⟨'*' :: '/' :: taken, rfl, rfl⟩
  · next c text _ =>
    obtain ⟨taken, rfl, rfl⟩ := skipBlock_eq_append h
    exact ⟨c :: taken, rfl, rfl⟩
termination_by text.length

end

theorem scanString_eq_append {opened p q : Position} {read text rest : List Char} {x : Lexeme}
    (h : scanString opened p read text = .ok (x, q, rest)) :
    ∃ taken, text = taken ++ rest ∧ q = p.after taken := by
  fun_induction scanString opened p read text with
  | case1 => simp at h
  | case2 p read text =>
    simp only [Except.ok.injEq, Prod.mk.injEq] at h
    exact ⟨['"'], by simp [h.2.2], by simp [h.2.1]⟩
  | case3 => simp at h
  | case4 p read c text d _ ih =>
    obtain ⟨taken, rfl, rfl⟩ := ih h
    exact ⟨'\\' :: c :: taken, rfl, rfl⟩
  | case5 => simp at h
  | case6 p read c text _ _ _ ih =>
    obtain ⟨taken, rfl, rfl⟩ := ih h
    exact ⟨c :: taken, rfl, rfl⟩

theorem integerLiteral_eq_append {p q : Position} {digits rest rest' : List Char} {x : Lexeme}
    (h : integerLiteral p digits rest = .ok (x, q, rest')) : rest' = rest ∧ q = p.after digits := by
  unfold integerLiteral at h
  split at h
  · simp only [Except.ok.injEq, Prod.mk.injEq] at h
    exact ⟨h.2.2.symm, h.2.1.symm⟩
  · cases h

theorem scanNumber_eq_append {p q : Position} {text rest : List Char} {x : Lexeme}
    (h : scanNumber p text = .ok (x, q, rest)) :
    ∃ taken, text = text.takeWhile Char.isDigit ++ taken ++ rest ∧
      q = p.after (text.takeWhile Char.isDigit ++ taken) := by
  have hsplit := (List.takeWhile_append_dropWhile (p := Char.isDigit) (l := text)).symm
  unfold scanNumber at h
  split at h
  · next more heq =>
    dsimp only at h
    split at h
    · obtain ⟨rfl, rfl⟩ := integerLiteral_eq_append h
      exact ⟨[], by rw [List.append_nil, ← heq]; exact hsplit, by simp⟩
    · simp only [Except.ok.injEq, Prod.mk.injEq] at h
      obtain ⟨-, rfl, rfl⟩ := h
      refine ⟨'.' :: more.takeWhile Char.isDigit, ?_, rfl⟩
      rw [List.append_assoc, List.cons_append, List.takeWhile_append_dropWhile, ← heq]
      exact hsplit
  · obtain ⟨rfl, rfl⟩ := integerLiteral_eq_append h
    exact ⟨[], by rw [List.append_nil]; exact hsplit, by simp⟩

/-- A token takes at least its first character. -/
theorem scanLexeme_eq_append {p q : Position} {c : Char} {text rest : List Char} {x : Lexeme}
    (h : scanLexeme p c text = .ok (x, q, rest)) :
    ∃ taken, text = taken ++ rest ∧ q = p.after (c :: taken) := by
  unfold scanLexeme at h
  split at h
  · obtain ⟨taken, rfl, rfl⟩ := scanString_eq_append h
    exact ⟨taken, rfl, rfl⟩
  split at h
  · next hd =>
    obtain ⟨taken, ht, rfl⟩ := scanNumber_eq_append h
    rw [List.takeWhile_cons_of_pos hd] at ht ⊢
    rw [List.append_assoc, List.cons_append, List.cons.injEq] at ht
    exact ⟨text.takeWhile Char.isDigit ++ taken, by rw [List.append_assoc]; exact ht.2, rfl⟩
  split at h
  · next hs =>
    have hp : isNamePart c = true := by
      simp only [isNameStart, isNamePart, Bool.or_eq_true] at hs ⊢
      rcases hs with hs | hs <;> simp [hs]
    simp only [scanWord, List.takeWhile_cons_of_pos hp, List.dropWhile_cons_of_pos hp,
      Except.ok.injEq, Prod.mk.injEq] at h
    obtain ⟨-, rfl, rfl⟩ := h
    exact ⟨text.takeWhile isNamePart, by simp, rfl⟩
  split at h
  · next s more hs =>
    simp only [Except.ok.injEq, Prod.mk.injEq] at h
    obtain ⟨-, rfl, rfl⟩ := h
    have happ := Sign.eq_append_of_scan? hs
    cases hc : s.chars with
    | nil => exact absurd hc s.chars_ne_nil
    | cons d ds =>
      rw [hc, List.cons_append, List.cons.injEq] at happ
      exact ⟨ds, happ.2, by rw [happ.1]⟩
  · simp at h

/-- The tokens from a position on, and the position where the text ends. -/
def tokensFrom (p : Position) (text : List Char) : Except Diagnostic (List Token × Position) :=
  match _hs : skipTrivia p text with
  | .error d => .error d
  | .ok (stop, []) => .ok ([], stop)
  | .ok (start, c :: rest) =>
    match _hl : scanLexeme start c rest with
    | .error d => .error d
    | .ok (lexeme, stop, rest') =>
      match tokensFrom stop rest' with
      | .error d => .error d
      | .ok (tokens, finish) => .ok (⟨lexeme, ⟨start, stop⟩⟩ :: tokens, finish)
termination_by text.length
decreasing_by
  obtain ⟨_, rfl, -⟩ := skipTrivia_eq_append _hs
  obtain ⟨_, rfl, -⟩ := scanLexeme_eq_append _hl
  simp
  omega

/-- The tokens of a text. -/
def tokenize (text : String) : Except Diagnostic TokenStream :=
  match tokensFrom Position.start text.toList with
  | .error d => .error d
  | .ok (tokens, finish) => .ok ⟨tokens, Span.point finish⟩

theorem tokensFrom_of_tokenize {text : String} {stream : TokenStream}
    (h : tokenize text = .ok stream) :
    ∃ finish, tokensFrom Position.start text.toList = .ok (stream.tokens, finish) ∧
      stream.finish = Span.point finish := by
  unfold tokenize at h
  split at h
  · cases h
  · next finish htokens =>
    cases h
    exact ⟨finish, htokens, rfl⟩

theorem tokensFrom_of_tokenize_error {text : String} {d : Diagnostic}
    (h : tokenize text = .error d) : tokensFrom Position.start text.toList = .error d := by
  unfold tokenize at h
  split at h
  · next htokens =>
    cases h
    exact htokens
  · cases h

end ScriptLang
