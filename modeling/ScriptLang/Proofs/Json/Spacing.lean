import Mathlib.Data.List.Chain
import ScriptLang.Json.Basic

/-!
# Documents with white space

White space may stand before, between and after the pieces of a JSON document. Reading such a document
gives the pieces back, as long as no two numbers meet: their digits could not be told apart without a
space, and no value has them side by side.

## Main definitions

* `Lexeme.IsPlain`: the pieces that are written for values made of texts and naturals
* `Spaced`: a text of pieces with white space around them

## Main results

* `scanLexeme_text`: a piece is read up to what follows it
* `lexemes?_spaced`: the pieces of a spaced text
-/

namespace ScriptLang.Json

/-! ### Numbers -/

/-- What follows the digits of a number if they are all of it. -/
def EndsNumber (rest : List Char) : Prop :=
  ∀ c, rest.head? = some c → c.isDigit = false ∧ c ≠ '.' ∧ c ≠ 'e' ∧ c ≠ 'E'

/-- The digits of a natural begin with a digit, and only those of zero with a zero. -/
theorem exists_toDigits (n : Nat) :
    ∃ c digits, Nat.toDigits 10 n = c :: digits ∧ c.isDigit = true ∧ (0 < n → c ≠ '0') := by
  induction n using Nat.strongRecOn with
  | ind n ih =>
    -- All digits but the last are those of a smaller number.
    rw [Nat.toDigits_eq_if (by decide)]
    split
    · next hsmall =>
      refine ⟨_, [], rfl, ?_, fun hpos hzero => ?_⟩
      · simpa [Nat.isDigit_digitChar] using hsmall
      · exact Nat.ne_of_gt hpos (Nat.digitChar_eq_zero.1 hzero)
    · next hlarge =>
      obtain ⟨c, digits, hdigits, hdigit, hzero⟩ := ih (n / 10) (by omega)
      refine ⟨c, _, by rw [hdigits, List.cons_append], hdigit, fun _ => hzero (by omega)⟩

theorem isDigit_of_mem_toDigits {n : Nat} {c : Char} (h : c ∈ Nat.toDigits 10 n) :
    c.isDigit = true :=
  Nat.isDigit_of_mem_toDigits (by decide) (by decide) h

theorem scanDigits_append {digits rest : List Char} (hne : digits ≠ [])
    (hdigits : ∀ c ∈ digits, c.isDigit = true) (hrest : EndsNumber rest) :
    scanDigits (digits ++ rest) = some (digits, rest) := by
  have htake : rest.takeWhile Char.isDigit = [] := by
    cases rest with
    | nil => rfl
    | cons c rest => exact List.takeWhile_cons_of_neg (by simp [(hrest c rfl).1])
  have hdrop : rest.dropWhile Char.isDigit = rest := by
    cases rest with
    | nil => rfl
    | cons c rest => exact List.dropWhile_cons_of_neg (by simp [(hrest c rfl).1])
  rw [scanDigits, List.takeWhile_append_of_pos hdigits, List.dropWhile_append_of_pos hdigits,
    htake, hdrop, List.append_nil]
  cases digits with
  | nil => exact absurd rfl hne
  | cons c digits => rfl

theorem scanWhole_toDigits (n : Nat) {rest : List Char} (hrest : EndsNumber rest) :
    scanWhole (Nat.toDigits 10 n ++ rest) = some (Nat.toDigits 10 n, rest) := by
  obtain rfl | hpos := Nat.eq_zero_or_pos n
  · rfl
  · obtain ⟨c, digits, hdigits, -, hzero⟩ := exists_toDigits n
    have hscan : scanDigits (Nat.toDigits 10 n ++ rest) = some (Nat.toDigits 10 n, rest) :=
      scanDigits_append Nat.toDigits_ne_nil (fun _ => isDigit_of_mem_toDigits) hrest
    -- A zero is read by itself, but no other natural begins with one.
    unfold scanWhole
    split
    · next more heq =>
      rw [hdigits, List.cons_append, List.cons.injEq] at heq
      exact absurd heq.1 (hzero hpos)
    · exact hscan

theorem scanNumber_toDigits (n : Nat) {rest : List Char} (hrest : EndsNumber rest) :
    scanNumber (Nat.toDigits 10 n ++ rest) = some (Nat.toDigits 10 n, rest) := by
  have hfraction : scanFraction rest = some ([], rest) := by
    unfold scanFraction
    split
    · exact absurd rfl (hrest '.' rfl).2.1
    · rfl
  have hexponent : scanExponent rest = some ([], rest) := by
    cases rest with
    | nil => rfl
    | cons c rest =>
      obtain ⟨-, -, hsmall, hlarge⟩ := hrest c rfl
      rw [scanExponent, if_neg (by simp [hsmall, hlarge])]
  unfold scanNumber
  split
  next sign more hsign =>
  -- A digit is no sign.
  have hplain : sign = [] ∧ more = Nat.toDigits 10 n ++ rest := by
    obtain ⟨c, digits, hdigits, hdigit, -⟩ := exists_toDigits n
    split at hsign
    · next heq =>
      rw [hdigits, List.cons_append, List.cons.injEq] at heq
      rw [heq.1] at hdigit
      exact absurd hdigit (by decide)
    · cases hsign
      exact ⟨rfl, rfl⟩
  obtain ⟨rfl, rfl⟩ := hplain
  simp [scanWhole_toDigits n hrest, hfraction, hexponent]

/-! ### Pieces -/

namespace Lexeme

/-- The piece is a number. -/
def IsNumber : Lexeme → Prop
  | number _ => True
  | _ => False

/-- The piece is one that is written for values made of texts and naturals. -/
def IsPlain : Lexeme → Prop
  | number literal => ∃ n, literal = Nat.toDigits 10 n
  | string literal => ∃ text, literal = encode text
  | _ => True

end Lexeme

theorem scanLexeme_digit {c : Char} (h : c.isDigit = true) (rest : List Char) :
    scanLexeme (c :: rest) =
      (scanNumber (c :: rest)).map fun (literal, rest) => (.number literal, rest) := by
  rw [scanLexeme]
  all_goals
    intro more heq
    cases heq
    exact absurd h (by decide)

/-- A piece is read up to what follows it, which must not go on with its digits. -/
theorem scanLexeme_text {x : Lexeme} (hx : x.IsPlain) {rest : List Char}
    (hrest : x.IsNumber → EndsNumber rest) : scanLexeme (x.text ++ rest) = some (x, rest) := by
  cases x with
  | bool value => cases value <;> rfl
  | number literal =>
    obtain ⟨n, rfl⟩ := hx
    have hnumber := scanNumber_toDigits n (hrest trivial)
    obtain ⟨c, digits, hdigits, hdigit, -⟩ := exists_toDigits n
    rw [hdigits, List.cons_append] at hnumber
    rw [Lexeme.text, hdigits, List.cons_append, scanLexeme_digit hdigit, hnumber]
    rfl
  | string literal =>
    obtain ⟨text, rfl⟩ := hx
    rw [Lexeme.text, List.cons_append, List.cons_append, List.append_assoc, List.singleton_append,
      scanLexeme, scanString_encode]
    rfl
  | _ => rfl

/-- A piece begins with a character that is no white space, and that goes on with no number unless it
is one itself. -/
theorem Lexeme.exists_text {x : Lexeme} (hx : x.IsPlain) :
    ∃ c more, x.text = c :: more ∧ isSpace c = false ∧ (¬x.IsNumber → EndsNumber x.text) := by
  have hends (c : Char) (more : List Char)
      (hc : c.isDigit = false ∧ c ≠ '.' ∧ c ≠ 'e' ∧ c ≠ 'E') : EndsNumber (c :: more) := by
    intro d hd
    cases hd
    exact hc
  cases x with
  | number literal =>
    obtain ⟨n, rfl⟩ := hx
    obtain ⟨c, digits, hdigits, hdigit, -⟩ := exists_toDigits n
    refine ⟨c, digits, hdigits, ?_, fun h => absurd trivial h⟩
    -- None of the four white characters is a digit.
    rw [Bool.eq_false_iff]
    intro hspace
    simp only [isSpace, Bool.or_eq_true, beq_iff_eq] at hspace
    rcases hspace with ((rfl | rfl) | rfl) | rfl <;> exact absurd hdigit (by decide)
  | bool value => cases value <;> exact ⟨_, _, rfl, by decide, fun _ => hends _ _ (by decide)⟩
  | _ => exact ⟨_, _, rfl, by decide, fun _ => hends _ _ (by decide)⟩

/-! ### Documents -/

/-- A text of pieces with white space before, between and after them. -/
inductive Spaced : List Lexeme → List Char → Prop where
  | nil {space : List Char} : (∀ c ∈ space, isSpace c = true) → Spaced [] space
  | cons {space : List Char} {x : Lexeme} {pieces : List Lexeme} {text : List Char} :
    (∀ c ∈ space, isSpace c = true) → Spaced pieces text →
      Spaced (x :: pieces) (space ++ (x.text ++ text))

/-- Pieces may be written with the same space before each, or without any. -/
theorem Spaced.flatMap {space : List Char} (hspace : ∀ c ∈ space, isSpace c = true)
    (pieces : List Lexeme) : Spaced pieces (pieces.flatMap fun x => space ++ x.text) := by
  induction pieces with
  | nil => exact .nil (List.forall_mem_nil _)
  | cons x pieces ih =>
    rw [List.flatMap_cons, List.append_assoc]
    exact .cons hspace ih

/-- The two pieces are not both numbers. -/
def Lexeme.Apart (x y : Lexeme) : Prop := ¬(x.IsNumber ∧ y.IsNumber)

theorem endsNumber_of_isSpace {c : Char} (h : isSpace c = true) (rest : List Char) :
    EndsNumber (c :: rest) := by
  intro d hd
  cases hd
  simp only [isSpace, Bool.or_eq_true, beq_iff_eq] at h
  rcases h with ((rfl | rfl) | rfl) | rfl <;> decide

/-- White space ends a number, and so does a piece that is none. -/
theorem Spaced.endsNumber {pieces : List Lexeme} {text : List Char} (h : Spaced pieces text)
    (hfirst : ∀ y ∈ pieces.head?, y.IsPlain ∧ ¬y.IsNumber) : EndsNumber text := by
  cases h with
  | nil hspace =>
    cases text with
    | nil =>
      intro c hc
      cases hc
    | cons c space => exact endsNumber_of_isSpace (hspace c List.mem_cons_self) space
  | @cons space y pieces text hspace _ =>
    -- Without white space the number is ended by the piece itself.
    cases space with
    | nil =>
      obtain ⟨hplain, hnumber⟩ := hfirst y rfl
      obtain ⟨c, more, htext, -, hends⟩ := y.exists_text hplain
      have hends := hends hnumber
      rw [htext] at hends
      rw [List.nil_append, htext]
      intro d hd
      exact hends d hd
    | cons c space => exact endsNumber_of_isSpace (hspace c List.mem_cons_self) _

theorem lexemes?_space {space : List Char} (h : ∀ c ∈ space, isSpace c = true) (text : List Char) :
    lexemes? (space ++ text) = lexemes? text := by
  induction space with
  | nil => rfl
  | cons c space ih =>
    rw [List.forall_mem_cons] at h
    rw [List.cons_append, lexemes?, if_pos h.1, ih h.2]

theorem lexemes?_text {x : Lexeme} (hx : x.IsPlain) {rest : List Char}
    (hrest : x.IsNumber → EndsNumber rest) :
    lexemes? (x.text ++ rest) = (lexemes? rest).map (x :: ·) := by
  have hscan := scanLexeme_text hx hrest
  obtain ⟨c, more, htext, hspace, -⟩ := x.exists_text hx
  rw [htext, List.cons_append] at hscan ⊢
  rw [lexemes?, if_neg (by simp [hspace])]
  split
  · next hnone =>
    rw [hnone] at hscan
    cases hscan
  · next y rest' hsome =>
    rw [hsome] at hscan
    cases hscan
    rfl

/-- The pieces of a spaced text are read back. -/
theorem lexemes?_spaced {pieces : List Lexeme} {text : List Char} (h : Spaced pieces text)
    (hplain : ∀ x ∈ pieces, x.IsPlain) (hapart : pieces.IsChain Lexeme.Apart) :
    lexemes? text = some pieces := by
  induction h with
  | @nil space hspace =>
    have hread := lexemes?_space hspace []
    rw [List.append_nil] at hread
    rw [hread, lexemes?]
  | @cons space x pieces text hspace hrest ih =>
    rw [List.forall_mem_cons] at hplain
    rw [List.isChain_cons] at hapart
    -- After a number comes no other, so what comes ends it.
    have hends : x.IsNumber → EndsNumber text := by
      intro hnumber
      refine hrest.endsNumber fun y hy => ⟨?_, fun hy' => hapart.1 y hy ⟨hnumber, hy'⟩⟩
      exact hplain.2 y (List.mem_of_mem_head? hy)
    rw [lexemes?_space hspace, lexemes?_text hplain.1 hends, ih hplain.2 hapart.2]
    rfl

end ScriptLang.Json
