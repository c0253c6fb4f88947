import Mathlib.Data.List.Infix
import ScriptLang.Proofs.Decimal.Fraction
import ScriptLang.Token.Lexer

/-!
# How lexemes are written

A lexeme can be written in several ways: an integer with zeros in front, a character inside a string as it
is or with a backslash. What is written is told without the scanner: the value of digits by their places, a
double by being the nearest one, an escape by a table.

Before a blank, or at the end of a text, the scanner reads a spelling as the lexeme that it denotes.

## Main definitions

* `escapes`: the escapes inside strings
* `Spelling`: a way to write a lexeme
* `Spelling.Denotes`: the lexeme that is written

## Main results

* `Spelling.Denotes.unique`: a spelling is that of one lexeme
* `scanLexeme_spelling`: a spelling before a blank is read as its lexeme
-/

namespace ScriptLang

open Text

/-! ### Classes of characters -/

namespace Text

/-- No code point lies in both of two sets. -/
def CodePoints.Apart (a b : CodePoints) : Prop :=
  ∀ r ∈ a, ∀ s ∈ b, r.2 < s.1 ∨ s.2 < r.1

instance (a b : CodePoints) : Decidable (a.Apart b) :=
  inferInstanceAs (Decidable (∀ r ∈ a, ∀ s ∈ b, r.2 < s.1 ∨ s.2 < r.1))

theorem CodePoints.Apart.not_contains {a b : CodePoints} (h : a.Apart b) {c : Char}
    (hc : a.contains c = true) : b.contains c = false := by
  obtain ⟨r, hr, hlow, hhigh⟩ := contains_iff.1 hc
  rw [Bool.eq_false_iff]
  intro hb
  obtain ⟨s, hs, hlow', hhigh'⟩ := contains_iff.1 hb
  have hapart := h r hr s hs
  omega

end Text

/-- Of the characters below U+0080, the white space is in no word. -/
theorem isNamePart_eq_false_of_lt {c : Char} (hc : isBlank c = true) (hlt : c.toNat < 0x80) :
    isNamePart c = false := by
  have hall : ∀ n < 0x80, isBlank (Char.ofNat n) = true → isNamePart (Char.ofNat n) = false := by
    decide +kernel
  have hchar := hall c.toNat hlt
  rw [Char.ofNat_toNat] at hchar
  exact hchar hc

/-- White space is in no word. -/
theorem isNamePart_eq_false_of_isBlank {c : Char} (hc : isBlank c = true) :
    isNamePart c = false := by
  by_cases hlt : c.toNat < 0x80
  · exact isNamePart_eq_false_of_lt hc hlt
  · have hletters : blanks.Apart letters := by decide +kernel
    have hnumerals : blanks.Apart numerals := by decide +kernel
    have hunderscore : c ≠ '_' := fun heq => hlt (by rw [heq]; decide)
    rw [isNamePart, isLetter, isNumeral, if_neg hlt, if_neg hlt, hletters.not_contains hc,
      hnumerals.not_contains hc]
    simpa using hunderscore

theorem toNat_of_isDigit {c : Char} (hc : c.isDigit = true) : c.toNat < 0x80 := by
  have hrange : (c.val ≥ 48 && c.val ≤ 57) = true := hc
  rw [Bool.and_eq_true, decide_eq_true_eq, decide_eq_true_eq] at hrange
  exact Nat.lt_of_le_of_lt (UInt32.le_iff_toNat_le.1 hrange.2) (by decide)

/-- A digit is no blank, begins no word, and is no sign. -/
theorem isDigit_apart {c : Char} (hc : c.isDigit = true) :
    isBlank c = false ∧ isNameStart c = false ∧ c ≠ '"' ∧ c ≠ '/' := by
  have hall : ∀ n < 0x80, (Char.ofNat n).isDigit = true →
      isBlank (Char.ofNat n) = false ∧ isNameStart (Char.ofNat n) = false ∧
        Char.ofNat n ≠ '"' ∧ Char.ofNat n ≠ '/' := by
    decide +kernel
  have hchar := hall c.toNat (toNat_of_isDigit hc)
  rw [Char.ofNat_toNat] at hchar
  exact hchar hc

theorem isNameStart_iff {c : Char} : isNameStart c = true ↔ isLetter c = true ∨ c = '_' := by
  rw [isNameStart, Bool.or_eq_true, beq_iff_eq]

theorem isNamePart_iff {c : Char} :
    isNamePart c = true ↔ isLetter c = true ∨ isNumeral c = true ∨ c = '_' := by
  rw [isNamePart, Bool.or_eq_true, Bool.or_eq_true, beq_iff_eq, or_assoc]

theorem isNamePart_of_isNameStart {c : Char} (hc : isNameStart c = true) :
    isNamePart c = true := by
  simp only [isNameStart, isNamePart, Bool.or_eq_true] at hc ⊢
  rcases hc with hc | hc
  · exact Or.inl (Or.inl hc)
  · exact Or.inr hc

/-- What begins a word begins nothing else. -/
theorem isNameStart_apart {c : Char} (hc : isNameStart c = true) :
    isBlank c = false ∧ c.isDigit = false ∧ c ≠ '"' ∧ c ≠ '/' := by
  have hpart := isNamePart_of_isNameStart hc
  refine ⟨?_, ?_, ?_, ?_⟩
  · rw [Bool.eq_false_iff]
    intro hblank
    rw [isNamePart_eq_false_of_isBlank hblank] at hpart
    cases hpart
  · rw [Bool.eq_false_iff]
    intro hdigit
    rw [(isDigit_apart hdigit).2.1] at hc
    cases hc
  · rintro rfl
    exact absurd hc (by decide)
  · rintro rfl
    exact absurd hc (by decide)

/-! ### Spellings -/

/-- What may stand behind a backslash inside a string, and the character that is meant. -/
def escapes : List (Char × Char) :=
  [('n', '\n'), ('t', '\t'), ('r', '\r'), ('0', '\x00'), ('\\', '\\'), ('"', '"')]

/-- The scanner knows these escapes and no others. -/
theorem escaped?_eq_some_iff {c d : Char} : escaped? c = some d ↔ (c, d) ∈ escapes := by
  constructor
  · intro h
    unfold escaped? at h
    split at h <;> cases h <;> decide
  · intro h
    simp only [escapes, List.mem_cons, Prod.mk.injEq, List.not_mem_nil, or_false] at h
    rcases h with ⟨rfl, rfl⟩ | ⟨rfl, rfl⟩ | ⟨rfl, rfl⟩ | ⟨rfl, rfl⟩ | ⟨rfl, rfl⟩ | ⟨rfl, rfl⟩ <;> rfl

theorem escaped?_eq_none_iff {c : Char} : escaped? c = none ↔ ∀ d, (c, d) ∉ escapes := by
  simp only [Option.eq_none_iff_forall_ne_some, ne_eq, escaped?_eq_some_iff]

/-- A way to write a character inside a string: as it is, or a backslash and what stands for it. -/
inductive StringItem where
  | raw (c : Char) (isPlain : c ≠ '"' ∧ c ≠ '\\')
  | escape (c d : Char) (isEscape : (c, d) ∈ escapes)

namespace StringItem

/-- The text of an item. -/
def chars : StringItem → List Char
  | raw c _ => [c]
  | escape c _ _ => ['\\', c]

/-- The character that an item denotes. -/
def denoted : StringItem → Char
  | raw c _ => c
  | escape _ d _ => d

/-- Every character can be written. -/
theorem exists_denoted (c : Char) : ∃ item : StringItem, item.denoted = c := by
  by_cases hquote : c = '"'
  · exact ⟨escape '"' '"' (by decide), hquote.symm⟩
  by_cases hslash : c = '\\'
  · exact ⟨escape '\\' '\\' (by decide), hslash.symm⟩
  exact ⟨raw c ⟨hquote, hslash⟩, rfl⟩

/-- Every text can be written between quotes. -/
theorem exists_items (s : String) :
    ∃ items : List StringItem, String.ofList (items.map denoted) = s := by
  have hchars (cs : List Char) : ∃ items : List StringItem, items.map denoted = cs := by
    induction cs with
    | nil => exact ⟨[], rfl⟩
    | cons c cs ih =>
      obtain ⟨item, hitem⟩ := exists_denoted c
      obtain ⟨items, hitems⟩ := ih
      exact ⟨item :: items, by rw [List.map_cons, hitem, hitems]⟩
  obtain ⟨items, hitems⟩ := hchars s.toList
  exact ⟨items, by rw [hitems, String.ofList_toList]⟩

end StringItem

/-- A way to write a lexeme. -/
inductive Spelling where
  | int (digits : List Char) (nonempty : digits ≠ []) (areDigits : ∀ c ∈ digits, c.isDigit = true)
      (inRange : placeValue digits < 2 ^ 63)
  | float (whole fraction : List Char) (wholeNonempty : whole ≠ []) (nonempty : fraction ≠ [])
      (wholeDigits : ∀ c ∈ whole, c.isDigit = true) (areDigits : ∀ c ∈ fraction, c.isDigit = true)
  | string (items : List StringItem)
  | name (first : Char) (more : List Char) (isStart : isLetter first = true ∨ first = '_')
      (areParts : ∀ c ∈ more, isLetter c = true ∨ isNumeral c = true ∨ c = '_')
      (notReserved : ∀ k : Keyword, k.text.toList ≠ first :: more)
  | keyword (k : Keyword)
  | sign (s : Sign)

namespace Spelling

/-- The text of a spelling. -/
def chars : Spelling → List Char
  | int digits .. => digits
  | float whole fraction .. => whole ++ '.' :: fraction
  | string items => '"' :: (items.flatMap StringItem.chars ++ ['"'])
  | name first more .. => first :: more
  | keyword k => k.text.toList
  | sign s => s.chars

/-- The lexeme that is written: an integer by its digits, a double by being the nearest one to what the
digits denote, a string by the characters that its items denote. -/
inductive Denotes : Spelling → Lexeme → Prop
  | int {digits : List Char} {nonempty areDigits inRange} {n : Int64}
      (value : n.toInt = placeValue digits) :
      Denotes (.int digits nonempty areDigits inRange) (.int n)
  | float {whole fraction : List Char} {wholeNonempty nonempty wholeDigits areDigits} {x : Float}
      (value : IsNearest (fractionValue whole fraction) x) :
      Denotes (.float whole fraction wholeNonempty nonempty wholeDigits areDigits) (.float x)
  | string (items : List StringItem) :
      Denotes (.string items) (.string (String.ofList (items.map StringItem.denoted)))
  | name {first : Char} {more : List Char} {isStart areParts notReserved} :
      Denotes (.name first more isStart areParts notReserved) (.name (String.ofList (first :: more)))
  | keyword (k : Keyword) : Denotes (.keyword k) (.keyword k)
  | sign (s : Sign) : Denotes (.sign s) (.sign s)

/-- A spelling is that of one lexeme. -/
theorem Denotes.unique {w : Spelling} {x y : Lexeme} (hx : w.Denotes x) (hy : w.Denotes y) : x = y := by
  cases hx with
  | int hx =>
    cases hy with
    | int hy => rw [Int64.toInt_inj.1 (hx.trans hy.symm)]
  | float hx =>
    cases hy with
    | float hy => rw [hx.unique hy]
  | string | name | keyword | sign =>
    cases hy
    rfl

/-- Every string can be written, with a backslash where one is needed. -/
theorem exists_string (s : String) : ∃ items, Denotes (.string items) (.string s) := by
  obtain ⟨items, rfl⟩ := StringItem.exists_items s
  exact ⟨items, .string items⟩

end Spelling

theorem Keyword.ofText?_eq_none_iff {word : List Char} :
    Keyword.ofText? (String.ofList word) = none ↔ ∀ k : Keyword, k.text.toList ≠ word := by
  have hall (k : Keyword) : k ∈ Keyword.all := by cases k <;> decide
  rw [Keyword.ofText?, List.find?_eq_none]
  constructor
  · rintro h k rfl
    exact h k (hall k) (by simp)
  · intro h k _ heq
    exact h k (by rw [of_decide_eq_true heq, String.toList_ofList])

/-- Nothing, or text that begins with a blank. -/
def BlankFirst (rest : List Char) : Prop := ∀ c ∈ rest.head?, isBlank c = true

/-- A class of characters ends where something else begins. -/
theorem takeWhile_append_of_head? {class' : Char → Bool} {word rest : List Char}
    (hword : ∀ c ∈ word, class' c = true) (hrest : ∀ c ∈ rest.head?, class' c = false) :
    (word ++ rest).takeWhile class' = word ∧ (word ++ rest).dropWhile class' = rest := by
  rw [List.takeWhile_append_of_pos hword, List.dropWhile_append_of_pos hword]
  cases rest with
  | nil => simp
  | cons c rest => simp [hrest c rfl]

theorem isDigit_eq_false_of_isBlank {c : Char} (hc : isBlank c = true) : c.isDigit = false := by
  rw [Bool.eq_false_iff]
  intro hdigit
  rw [(isDigit_apart hdigit).1] at hc
  cases hc

/-- The items of a string are read one after another, whatever stands behind them. -/
theorem scanString_items {opened p : Position} {read rest : List Char} (items : List StringItem) :
    scanString opened p read (items.flatMap StringItem.chars ++ rest) =
      scanString opened (p.after (items.flatMap StringItem.chars))
        ((items.map StringItem.denoted).reverse ++ read) rest := by
  induction items generalizing p read with
  | nil => rfl
  | cons item items ih =>
    cases item with
    | raw c hc =>
      simp only [List.flatMap_cons, StringItem.chars, List.cons_append, List.nil_append]
      rw [scanString, ih]
      -- The scanner asks for a quote and for a backslash first, and the character is neither.
      · simp [StringItem.denoted]
      · exact hc.1
      · intro heq
        exact absurd heq hc.2
      · intro _ _ heq
        exact absurd heq hc.2
    | escape c d hd =>
      simp only [List.flatMap_cons, StringItem.chars, List.cons_append, List.nil_append]
      rw [scanString, escaped?_eq_some_iff.2 hd]
      simp only [ih]
      simp [StringItem.denoted]

theorem integerLiteral_inRange {p : Position} {digits rest : List Char}
    (h : (natOfDigits digits : Int) ≤ Int64.maxValue.toInt) :
    integerLiteral p digits rest =
      .ok (.int (Int64.ofInt (natOfDigits digits)), p.after digits, rest) := by
  have hmax : Int64.maxValue.toInt = 9223372036854775807 := Int64.toInt_maxValue
  have hvalue : int64OfInt? (natOfDigits digits) = some (Int64.ofInt (natOfDigits digits)) :=
    int64OfInt?_eq_some_iff.2 (Int64.toInt_ofInt_of_le (by omega) (by omega))
  rw [integerLiteral, hvalue]

/-- What follows the digits of an integer: no digit, and no point with a digit behind it. -/
structure EndsInteger (rest : List Char) : Prop where
  noDigit : ∀ c ∈ rest.head?, c.isDigit = false
  noFraction : ∀ c more, rest = '.' :: c :: more → c.isDigit = false

theorem BlankFirst.endsInteger {rest : List Char} (h : BlankFirst rest) : EndsInteger rest where
  noDigit c hc := isDigit_eq_false_of_isBlank (h c hc)
  noFraction c more hpoint := by
    -- A point would be the blank that separates.
    subst hpoint
    exact absurd (h '.' rfl) (by decide)

theorem scanNumber_integer {p : Position} {digits rest : List Char}
    (hdigits : ∀ c ∈ digits, c.isDigit = true) (hrest : EndsInteger rest) :
    scanNumber p (digits ++ rest) = integerLiteral p digits rest := by
  obtain ⟨htake, hdrop⟩ := takeWhile_append_of_head? hdigits hrest.noDigit
  simp only [scanNumber, htake, hdrop]
  split
  · next more =>
    -- The point has no digit behind it.
    have hfraction : more.takeWhile Char.isDigit = [] := by
      cases more with
      | nil => rfl
      | cons c more => simp [hrest.noFraction c more rfl]
    rw [if_pos hfraction]
  · rfl

theorem scanNumber_fraction {p : Position} {whole fraction rest : List Char}
    (hwhole : ∀ c ∈ whole, c.isDigit = true) (hnonempty : fraction ≠ [])
    (hfraction : ∀ c ∈ fraction, c.isDigit = true) (hrest : ∀ c ∈ rest.head?, c.isDigit = false) :
    scanNumber p (whole ++ '.' :: (fraction ++ rest)) =
      .ok (.float (floatOfDigits whole fraction), p.after (whole ++ '.' :: fraction), rest) := by
  obtain ⟨htake, hdrop⟩ := takeWhile_append_of_head? hfraction hrest
  have hpoint : Char.isDigit '.' = false := by decide
  simp [scanNumber, List.takeWhile_append_of_pos hwhole, List.dropWhile_append_of_pos hwhole,
    hpoint, htake, hdrop, hnonempty]

theorem scanWord_parts {p : Position} {word rest : List Char}
    (hword : ∀ c ∈ word, isNamePart c = true) (hrest : BlankFirst rest) :
    scanWord p (word ++ rest) = (Lexeme.ofWord (String.ofList word), p.after word, rest) := by
  obtain ⟨htake, hdrop⟩ := takeWhile_append_of_head? hword fun c hc =>
    isNamePart_eq_false_of_isBlank (hrest c hc)
  simp only [scanWord, htake, hdrop]

/-- Before a blank or the end a sign is not the beginning of a longer one. -/
theorem Sign.scan?_blankFirst (s : Sign) {rest : List Char} (hrest : BlankFirst rest) :
    Sign.scan? (s.chars ++ rest) = some (s, rest) := by
  cases rest with
  | nil => cases s <;> rfl
  | cons c rest =>
    have hc : isBlank c = true := hrest c rfl
    have hassign : c ≠ '=' := by
      rintro rfl
      exact absurd hc (by decide)
    cases s <;> simp [Sign.scan?, Sign.all, Sign.chars, List.isPrefixOf, hassign.symm]

/-- A reserved word is written as a word. -/
theorem Keyword.text_parts (k : Keyword) :
    (∃ c cs, k.text.toList = c :: cs ∧ isNameStart c = true) ∧
      ∀ c ∈ k.text.toList, isNamePart c = true := by
  have halpha : k.text.toList.all Char.isAlpha = true := by cases k <;> decide
  have hstart (c : Char) (hc : c ∈ k.text.toList) : isNameStart c = true := by
    rw [isNameStart, isLetter_of_isAlpha (List.all_eq_true.1 halpha c hc), Bool.true_or]
  refine ⟨?_, fun c hc => isNamePart_of_isNameStart (hstart c hc)⟩
  have hnonempty : k.text.toList ≠ [] := by cases k <;> decide
  obtain ⟨c, cs, htext⟩ := List.exists_cons_of_ne_nil hnonempty
  exact ⟨c, cs, htext, hstart c (by rw [htext]; exact List.mem_cons_self)⟩

/-- What begins a sign begins no string, number or word. -/
theorem Sign.chars_apart (s : Sign) :
    ∀ c ∈ s.chars.head?, c ≠ '"' ∧ c.isDigit = false ∧ isNameStart c = false := by
  intro c hc
  have hascii : c ≠ '"' ∧ c.isDigit = false ∧ c.isAlpha = false ∧ c ≠ '_' ∧ c.toNat < 0x80 := by
    cases s <;> cases hc <;> decide
  obtain ⟨hquote, hdigit, halpha, hunderscore, hlt⟩ := hascii
  refine ⟨hquote, hdigit, ?_⟩
  rw [isNameStart, isLetter, if_pos hlt, halpha]
  simpa using hunderscore

theorem scanLexeme_word {p : Position} {c : Char} {cs rest : List Char}
    (hc : isNameStart c = true) (hcs : ∀ d ∈ c :: cs, isNamePart d = true)
    (hrest : BlankFirst rest) :
    scanLexeme p c (cs ++ rest) =
      .ok (Lexeme.ofWord (String.ofList (c :: cs)), p.after (c :: cs), rest) := by
  obtain ⟨-, hdigit, hquote, -⟩ := isNameStart_apart hc
  rw [scanLexeme, if_neg hquote, if_neg (by simp [hdigit]), if_pos hc, ← List.cons_append,
    scanWord_parts hcs hrest]

theorem scanLexeme_number {p : Position} {c : Char} {cs : List Char} (hc : c.isDigit = true) :
    scanLexeme p c cs = scanNumber p (c :: cs) := by
  rw [scanLexeme, if_neg (isDigit_apart hc).2.2.1, if_pos hc]

/-- **A spelling before a blank or the end is read as its lexeme.** -/
theorem scanLexeme_spelling (w : Spelling) (p : Position) {rest : List Char}
    (hrest : BlankFirst rest) :
    ∃ c cs x, w.chars = c :: cs ∧ w.Denotes x ∧
      scanLexeme p c (cs ++ rest) = .ok (x, p.after w.chars, rest) := by
  cases w with
  | int digits hnonempty hdigits hrange =>
    obtain ⟨c, cs, rfl⟩ := List.exists_cons_of_ne_nil hnonempty
    have hmax : Int64.maxValue.toInt = 9223372036854775807 := Int64.toInt_maxValue
    have hvalue : (natOfDigits (c :: cs) : Int) ≤ Int64.maxValue.toInt := by
      rw [natOfDigits_eq_placeValue, hmax]
      omega
    refine ⟨c, cs, .int (Int64.ofInt (natOfDigits (c :: cs))), rfl, .int ?_, ?_⟩
    · rw [Int64.toInt_ofInt_of_le (by omega) (by omega), natOfDigits_eq_placeValue]
    · rw [scanLexeme_number (hdigits c List.mem_cons_self), ← List.cons_append,
        scanNumber_integer hdigits hrest.endsInteger, integerLiteral_inRange hvalue]
      rfl
  | float whole fraction hwhole hnonempty hwholes hdigits =>
    obtain ⟨c, cs, rfl⟩ := List.exists_cons_of_ne_nil hwhole
    refine ⟨c, cs ++ '.' :: fraction, _, rfl, .float (floatOfDigits_isNearest (c :: cs) hnonempty), ?_⟩
    -- A digit follows the point, so the point belongs to the number.
    rw [scanLexeme_number (hwholes c List.mem_cons_self), List.append_assoc, List.cons_append,
      ← List.cons_append, scanNumber_fraction hwholes hnonempty hdigits hrest.endsInteger.noDigit]
    rfl
  | string items =>
    refine ⟨'"', items.flatMap StringItem.chars ++ ['"'], _, rfl, .string items, ?_⟩
    rw [scanLexeme, if_pos rfl, List.append_assoc, scanString_items, List.singleton_append,
      scanString, List.append_nil, List.reverse_reverse, Spelling.chars, Position.after_cons,
      Position.after_append]
    rfl
  | name first more hstart hparts hname =>
    have hfirst : isNameStart first = true := isNameStart_iff.2 hstart
    have hword : ∀ d ∈ first :: more, isNamePart d = true :=
      List.forall_mem_cons.2 ⟨isNamePart_of_isNameStart hfirst, fun d hd => isNamePart_iff.2 (hparts d hd)⟩
    refine ⟨first, more, _, rfl, .name, ?_⟩
    rw [scanLexeme_word hfirst hword hrest, Lexeme.ofWord, Keyword.ofText?_eq_none_iff.2 hname]
    rfl
  | keyword k =>
    obtain ⟨⟨c, cs, htext, hstart⟩, hparts⟩ := k.text_parts
    refine ⟨c, cs, _, htext, .keyword k, ?_⟩
    rw [htext] at hparts
    rw [scanLexeme_word hstart hparts hrest, Spelling.chars, htext, ← htext, String.ofList_toList,
      Lexeme.ofWord, Keyword.ofText?_text]
  | sign s =>
    obtain ⟨c, cs, hchars⟩ := List.exists_cons_of_ne_nil s.chars_ne_nil
    obtain ⟨hquote, hdigit, hstart⟩ := s.chars_apart c (by rw [hchars]; rfl)
    refine ⟨c, cs, _, hchars, .sign s, ?_⟩
    -- The other three kinds of lexemes begin otherwise; the blank keeps the sign from being longer.
    rw [scanLexeme, if_neg hquote, if_neg (by simp [hdigit]), if_neg (by simp [hstart]),
      ← List.cons_append, ← hchars, Sign.scan?_blankFirst s hrest]
    rfl

/-- A spelling begins with no blank, and with a slash only if it is that sign. -/
theorem Spelling.exists_chars_eq_cons (w : Spelling) :
    ∃ c cs, w.chars = c :: cs ∧ isBlank c = false ∧ (c = '/' → cs = []) := by
  cases w with
  | int digits hnonempty hdigits hrange =>
    obtain ⟨c, cs, rfl⟩ := List.exists_cons_of_ne_nil hnonempty
    obtain ⟨hblank, -, -, hslash⟩ := isDigit_apart (hdigits c List.mem_cons_self)
    exact ⟨c, cs, rfl, hblank, fun heq => absurd heq hslash⟩
  | float whole fraction hwhole hnonempty hwholes hdigits =>
    obtain ⟨c, cs, rfl⟩ := List.exists_cons_of_ne_nil hwhole
    obtain ⟨hblank, -, -, hslash⟩ := isDigit_apart (hwholes c List.mem_cons_self)
    exact ⟨c, cs ++ '.' :: fraction, rfl, hblank, fun heq => absurd heq hslash⟩
  | string items => exact ⟨'"', _, rfl, by decide, fun heq => absurd heq (by decide)⟩
  | name first more hstart hparts hname =>
    obtain ⟨hblank, -, -, hslash⟩ := isNameStart_apart (isNameStart_iff.2 hstart)
    exact ⟨first, more, rfl, hblank, fun heq => absurd heq hslash⟩
  | keyword k =>
    obtain ⟨⟨c, cs, htext, hstart⟩, -⟩ := k.text_parts
    obtain ⟨hblank, -, -, hslash⟩ := isNameStart_apart hstart
    exact ⟨c, cs, htext, hblank, fun heq => absurd heq hslash⟩
  | sign s => cases s <;> exact ⟨_, _, rfl, by decide, by decide⟩

end ScriptLang
