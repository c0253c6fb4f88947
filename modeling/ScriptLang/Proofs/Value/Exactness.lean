import Mathlib.Algebra.Order.Floor.Semifield
import Mathlib.Data.Rat.Floor
import ScriptLang.Proofs.Source.Marks
import ScriptLang.Proofs.Syntax.Spans
import ScriptLang.Proofs.Value.Integers

/-!
# Where integers come from

A program gets its integers from the digits in its text, from conversions and from the lengths of
strings. Each of these gives the integer that it should give, or none.

## Main definitions

* `IntegerPart`, `IntegerText`, `Value.Converts`: what the conversion to integers should give

## Main results

* `Token.Written.digits`: an integer literal is the number that its digits denote
* `Value.Converts.toInt?`, `Value.exists_converts_of_toInt?_ok`: conversions are exact
* `Value.length?_string`: lengths are
-/

namespace ScriptLang

/-! ### Literals -/

theorem string_of_scanString {opened p q : Position} {read text rest : List Char} {x : Lexeme}
    (h : scanString opened p read text = .ok (x, q, rest)) : ∃ s, x = .string s := by
  fun_induction scanString opened p read text with
  | case2 =>
    cases h
    exact ⟨_, rfl⟩
  | case4 _ _ _ _ _ _ ih => exact ih h
  | case6 _ _ _ _ _ _ _ ih => exact ih h
  | case1 | case3 | case5 => cases h

/-- What is read as an integer is digits, and the number that they denote. -/
theorem digits_of_scanLexeme {p q : Position} {c : Char} {text rest : List Char} {n : Int64}
    (h : scanLexeme p c text = .ok (.int n, q, rest)) :
    ∃ digits, c :: text = digits ++ rest ∧ (∀ d ∈ digits, d.isDigit = true) ∧
      n.toInt = natOfDigits digits := by
  unfold scanLexeme at h
  split at h
  · obtain ⟨s, hs⟩ := string_of_scanString h
    cases hs
  split at h
  · obtain ⟨digits, rest', htext, hdigits, -, hscan⟩ |
      ⟨whole, fraction, rest', htext, hwhole, hfraction, hne, hrest⟩ := scanNumber_cases p (c :: text)
    · rw [hscan, integerLiteral] at h
      split at h
      · next hvalue =>
        cases h
        refine ⟨digits, htext, ?_, int64OfInt?_eq_some_iff.1 hvalue⟩
        rw [← hdigits]
        exact fun d hd => List.mem_takeWhile_imp hd
      · cases h
    · have hdigits : ∀ d ∈ whole, d.isDigit = true := by
        rw [← hwhole]
        exact fun d hd => List.mem_takeWhile_imp hd
      rw [htext, scanNumber_fraction hdigits hne hfraction hrest] at h
      cases h
  split at h
  · simp only [scanWord, Lexeme.ofWord] at h
    split at h <;> cases h
  split at h <;> cases h

/-- A position counts only what stands in front of it. -/
theorem Position.eq_nil_of_after_eq {p : Position} {text : List Char} (h : p.after text = p) :
    text = [] := by
  by_contra hne
  exact absurd h (Position.lt_after p hne).ne'

/-- An integer literal is digits in the text, and the number that they denote. -/
theorem Token.Written.digits {text word : List Char} {token : Token} {n : Int64}
    (h : token.Written text word) (hn : token.lexeme = .int n) :
    (∀ d ∈ word, d.isDigit = true) ∧ n.toInt = natOfDigits word := by
  have hlexes := lexes_of_tokenize h.alone
  rw [String.toList_ofList, hn] at hlexes
  obtain ⟨start, stop, hstart, hstop, hlexes⟩ : ∃ start stop, start = Position.start ∧
      stop = Position.counted word ∧ Lexes Position.start word [⟨.int n, ⟨start, stop⟩⟩] :=
    ⟨_, _, rfl, rfl, hlexes⟩
  cases hlexes with
  | @cons _ _ _ c _ more rest _ _ hskip hscan _ =>
    -- By itself the word has nothing in front of the digits and nothing behind them.
    obtain ⟨gap, rfl, hgap⟩ := skipTrivia_eq_append hskip
    obtain rfl : gap = [] := Position.eq_nil_of_after_eq (hgap.symm.trans hstart)
    obtain ⟨taken, rfl, htaken⟩ := scanLexeme_eq_append hscan
    have hrest : rest = [] := by
      refine Position.eq_nil_of_after_eq (p := stop) ?_
      calc stop.after rest
          = Position.start.after (c :: taken ++ rest) := by rw [htaken, hstart, Position.after_append]
        _ = stop := by rw [hstop, Position.after_start]; rfl
    obtain ⟨digits, hword, hdigits, hvalue⟩ := digits_of_scanLexeme hscan
    obtain rfl : c :: (taken ++ rest) = digits := by rw [hword, hrest, List.append_nil]
    exact ⟨hdigits, hvalue⟩

/-! ### Literals in trees -/

/-- The integer that an expression is a literal of. -/
def Expr.literal? : Expr → Option Int64
  | int _ n => some n
  | _ => none

/-- The integer that a construct is a literal of. -/
def Phrase.literal? : Phrase → Option Int64
  | expr e | chain _ e => e.literal?
  | _ => none

theorem Token.literal?_of_atom? {token : Token} {e : Expr} {n : Int64} (h : token.atom? = some e)
    (hn : e.literal? = some n) : token.lexeme = .int n := by
  unfold Token.atom? at h
  split at h <;> cases h <;> cases hn
  rfl

@[simp] theorem Expr.literal?_withSpan (e : Expr) (span : Span) :
    (e.withSpan span).literal? = e.literal? := by
  cases e <;> rfl

/-- A literal in a tree is a literal among its tokens. The induction is on the derivation: only
parentheses hand one on. -/
theorem Derives.exists_literal {k : Nat} {tokens : List Token} {phrase : Phrase} {n : Int64}
    (h : Derives k tokens phrase) (hn : phrase.literal? = some n) :
    ∃ token ∈ tokens, token.lexeme = .int n := by
  induction h with
  | atom hatom => exact ⟨_, List.mem_singleton_self _, Token.literal?_of_atom? hatom hn⟩
  | group _ ih =>
    obtain ⟨token, htoken, hlexeme⟩ := ih (by simpa [Phrase.literal?] using hn)
    exact ⟨token, by simp [htoken], hlexeme⟩
  | expr _ ih => exact ih hn
  | _ => cases hn

/-- An integer literal in a program is an integer in its text. -/
theorem Program.exists_literal_of_parse {source : SourceUnit} {p : Program}
    (h : parse source = .ok p) {s : Stmt} (hs : s ∈ p.stmts) {span : Span} {n : Int64}
    (hliteral : (Node.stmt s).Contains (.expr (.int span n))) :
    ∃ stream token, tokenize source.text = .ok stream ∧ token ∈ stream.tokens ∧
      token.lexeme = .int n := by
  obtain ⟨stream, htokenize, -, hrow⟩ := exists_row_of_parse h
  obtain ⟨used, hsub, hlaid⟩ := hrow.laid _ (List.mem_map_of_mem hs) _ hliteral
  obtain ⟨k, hderives⟩ := hlaid.readFrom
  obtain ⟨token, htoken, hlexeme⟩ := hderives.exists_literal rfl
  exact ⟨stream, token, htokenize, hsub.subset htoken, hlexeme⟩

/-! ### Conversions -/

/-- The integer is the double rounded towards zero. -/
def IntegerPart (x : Float) (z : Int) : Prop :=
  ∃ negative mantissa exponent, Binary64.ofFloat x = .finite negative mantissa exponent ∧
    z = (if negative then -1 else 1) * (⌊(mantissa : ℚ) * 2 ^ exponent⌋₊ : Int)

theorem shift_eq_floor (mantissa : Nat) (exponent : Int) :
    (if exponent < 0 then mantissa >>> (-exponent).toNat else mantissa <<< exponent.toNat) =
      ⌊(mantissa : ℚ) * 2 ^ exponent⌋₊ := by
  split
  · next h =>
    obtain ⟨k, rfl⟩ : ∃ k : Nat, exponent = -k := ⟨(-exponent).toNat, by omega⟩
    have hquotient : (mantissa : ℚ) * 2 ^ (-k : Int) = (mantissa : ℚ) / (2 ^ k : Nat) := by
      rw [zpow_neg, zpow_natCast, Nat.cast_pow, Nat.cast_ofNat, div_eq_mul_inv]
    have hshift : (-(-k : Int)).toNat = k := by omega
    rw [hquotient, Nat.floor_div_eq_div, hshift, Nat.shiftRight_eq_div_pow]
  · next h =>
    obtain ⟨k, rfl⟩ : ∃ k : Nat, exponent = k := ⟨exponent.toNat, by omega⟩
    have hproduct : (mantissa : ℚ) * 2 ^ (k : Int) = (mantissa * 2 ^ k : Nat) := by
      rw [zpow_natCast, Nat.cast_mul, Nat.cast_pow, Nat.cast_ofNat]
    rw [hproduct, Nat.floor_natCast, Int.toNat_natCast, Nat.shiftLeft_eq]

theorem truncated?_eq_some_iff {x : Float} {z : Int} :
    Float.truncated? x = some z ↔ IntegerPart x z := by
  cases hx : Binary64.ofFloat x with
  | finite negative mantissa exponent =>
    have htruncated : Float.truncated? x =
        some ((if negative then -1 else 1) * (⌊(mantissa : ℚ) * 2 ^ exponent⌋₊ : Int)) := by
      rw [Float.truncated?, hx, ← shift_eq_floor]
      cases negative
      · exact congrArg some (Int.one_mul _).symm
      · exact congrArg some (Int.neg_one_mul _).symm
    rw [htruncated, Option.some_inj]
    constructor
    · rintro rfl
      exact ⟨negative, mantissa, exponent, hx, rfl⟩
    · rintro ⟨negative', mantissa', exponent', hx', rfl⟩
      cases hx.symm.trans hx'
      rfl
  | nan | infinite =>
    rw [Float.truncated?, hx]
    refine iff_of_false nofun ?_
    rintro ⟨_, _, _, hx', -⟩
    cases hx.symm.trans hx'

/-- Decimal digits after at most one sign, and the integer that they denote. -/
inductive IntegerText : List Char → Int → Prop
  | unsigned {digits : List Char} : digits ≠ [] → (∀ c ∈ digits, c.isDigit = true) →
    IntegerText digits (natOfDigits digits)
  | positive {digits : List Char} : digits ≠ [] → (∀ c ∈ digits, c.isDigit = true) →
    IntegerText ('+' :: digits) (natOfDigits digits)
  | negative {digits : List Char} : digits ≠ [] → (∀ c ∈ digits, c.isDigit = true) →
    IntegerText ('-' :: digits) (-natOfDigits digits)

/-- A text is read as the integer that it denotes. -/
theorem IntegerText.int64OfText? {text : List Char} {z : Int} (h : IntegerText text z) :
    int64OfText? text = int64OfInt? z := by
  have hread {digits : List Char} (hne : digits ≠ []) (hdigits : ∀ c ∈ digits, c.isDigit = true) :
      digits ≠ [] ∧ digits.all Char.isDigit = true := ⟨hne, List.all_eq_true.2 hdigits⟩
  unfold ScriptLang.int64OfText?
  dsimp only
  cases h with
  | positive hne hdigits => exact if_pos (hread hne hdigits)
  | negative hne hdigits => exact if_pos (hread hne hdigits)
  | unsigned hne hdigits =>
    -- A sign is no digit.
    split
    · exact absurd (hdigits '-' (List.mem_cons_self ..)) (by decide)
    · exact absurd (hdigits '+' (List.mem_cons_self ..)) (by decide)
    · exact if_pos (hread hne hdigits)

theorem integerText_of_int64OfText? {text : List Char} {n : Int64}
    (h : int64OfText? text = some n) : IntegerText text n.toInt := by
  have hread {digits : List Char} {z : Int}
      (h : (if digits ≠ [] ∧ digits.all Char.isDigit = true then int64OfInt? z else none) = some n) :
      digits ≠ [] ∧ (∀ c ∈ digits, c.isDigit = true) ∧ n.toInt = z := by
    split at h
    · next hdigits =>
      exact ⟨hdigits.1, List.all_eq_true.1 hdigits.2, int64OfInt?_eq_some_iff.1 h⟩
    · cases h
  unfold int64OfText? at h
  dsimp only at h
  split at h
  · obtain ⟨hne, hdigits, hn⟩ := hread h
    exact hn ▸ .negative hne hdigits
  · obtain ⟨hne, hdigits, hn⟩ := hread h
    exact hn ▸ .positive hne hdigits
  · obtain ⟨hne, hdigits, hn⟩ := hread h
    exact hn ▸ .unsigned hne hdigits

namespace Value

/-- What the conversion to integers should give: the integer itself, zero and one for the truth values, a
float without its fraction, and what a text denotes between white space. -/
inductive Converts : Value → Int → Prop
  | int (n : Int64) : Converts (int n) n.toInt
  | bool (b : Bool) : Converts (bool b) (if b then 1 else 0)
  | float {x : Float} {z : Int} : IntegerPart x z → Converts (float x) z
  | string {s : String} {z : Int} : IntegerText (Text.trim s.toList) z → Converts (string s) z

/-- A conversion gives the integer that it should give, unless 64 bits do not hold it. -/
theorem Converts.toInt? {u : Value} {z : Int} (h : u.Converts z) :
    (∃ n, toInt? u = .ok (.int n) ∧ n.toInt = z) ∨
      ¬ Fits z ∧ ∃ fault, toInt? u = .error fault ∧ (fault.kind = .overflow ∨ fault.kind = .type) := by
  cases h with
  | int n => exact Or.inl ⟨n, rfl, rfl⟩
  | bool b => exact Or.inl ⟨_, rfl, by cases b <;> rfl⟩
  | @float x _ hx =>
    have hdef : Value.toInt? (.float x) = ofInt? (.floatRange x) z := by
      rw [Value.toInt?, truncate?, truncated?_eq_some_iff.2 hx]
    have hexact : Exact z (Value.toInt? (.float x)) := hdef ▸ ofInt?_exact rfl z
    generalize Value.toInt? (.float x) = result at hexact ⊢
    cases hexact with
    | value hn => exact Or.inl ⟨_, rfl, hn⟩
    | overflow hlarge hkind => exact Or.inr ⟨hlarge, _, rfl, Or.inl hkind⟩
  | @string s _ hs =>
    rw [Value.toInt?, hs.int64OfText?]
    cases hvalue : int64OfInt? z with
    | some n => exact Or.inl ⟨n, rfl, int64OfInt?_eq_some_iff.1 hvalue⟩
    | none => exact Or.inr ⟨int64OfInt?_eq_none_iff_not_fits.1 hvalue, _, rfl, Or.inr rfl⟩

/-- What a conversion gives is the integer that it should give. -/
theorem exists_converts_of_toInt?_ok {u v : Value} (h : toInt? u = .ok v) :
    ∃ n, v = .int n ∧ Converts u n.toInt := by
  cases u with
  | int n =>
    cases h
    exact ⟨n, rfl, .int n⟩
  | bool b =>
    cases h
    refine ⟨_, rfl, ?_⟩
    cases b
    · exact .bool false
    · exact .bool true
  | float x =>
    rw [toInt?, truncate?] at h
    split at h
    · next z hz =>
      rw [ofInt?] at h
      split at h
      · next n hn =>
        cases h
        obtain rfl := int64OfInt?_eq_some_iff.1 hn
        exact ⟨n, rfl, .float (truncated?_eq_some_iff.1 hz)⟩
      · cases h
    · cases h
  | string s =>
    rw [toInt?] at h
    split at h
    · next n hn =>
      cases h
      exact ⟨n, rfl, .string (integerText_of_int64OfText? hn)⟩
    · cases h
  | _ => cases h

/-- Every length of a text in memory is an integer: no text takes up `2 ^ 63` bytes. -/
theorem length?_string {s : String} (h : s.length < 2 ^ 63) :
    ∃ n, length? (string s) = .ok (int n) ∧ n.toInt = s.length := by
  refine ⟨_, rfl, ?_⟩
  rw [Int64.toInt_ofNat_of_lt h]

end Value

/-- A built-in gives back an integer only as a conversion or as a length. -/
theorem Builtin.exists_of_outcome?_int {b : Builtin} {args : List Value} {n : Int64}
    {line : Option String} (h : b.outcome? args = .ok (.int n, line)) :
    (∃ u, b = .int ∧ args = [u] ∧ u.Converts n.toInt) ∨
      ∃ s, b = .len ∧ args = [.string s] ∧ (s.length < 2 ^ 63 → n.toInt = s.length) := by
  by_cases hprint : b = .print
  · rw [hprint] at h
    cases h
  -- All others take one argument.
  obtain ⟨u, rfl⟩ : ∃ u, args = [u] := by
    match args with
    | [u] => exact ⟨u, rfl⟩
    | [] | _ :: _ :: _ => cases b <;> first | exact absurd rfl hprint | cases h
  cases b with
  | print => exact absurd rfl hprint
  | str | bool | type => cases h
  | int =>
    refine Or.inl ⟨u, rfl, rfl, ?_⟩
    have houtcome : Builtin.int.outcome? [u] = u.toInt?.bind fun v => .ok (v, none) := rfl
    rw [houtcome] at h
    cases hu : u.toInt? with
    | ok v =>
      rw [hu] at h
      cases h
      obtain ⟨m, hm, hconverts⟩ := Value.exists_converts_of_toInt?_ok hu
      cases hm
      exact hconverts
    | error fault =>
      rw [hu] at h
      cases h
  | len =>
    cases u with
    | string s =>
      refine Or.inr ⟨s, rfl, rfl, fun hs => ?_⟩
      obtain ⟨m, hm, hlength⟩ := Value.length?_string hs
      cases hm
      cases h
      exact hlength
    | _ => cases h

end ScriptLang
