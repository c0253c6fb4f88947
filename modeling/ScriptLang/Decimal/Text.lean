import ScriptLang.Decimal.Shortest

/-!
# Numbers as text

How numbers are written and read. A double is written with the fewest digits that read back, in
positions or with an exponent according to its size; an integer in decimal with a sign if negative.

## Main definitions

* `FloatLayout`: where positional notation ends
* `floatText`: the text of a double
* `floatOfDigits`: the double nearest to a decimal fraction
* `int64OfNat?`, `int64OfInt?`: an integer, if 64 bits hold it
* `int64OfText?`: the integer that a text denotes

## Main results

* `natOfDigits_toDigits`: the digits of a natural denote it
* `int64OfInt?_eq_some_iff`, `int64OfInt?_eq_none_iff`: which integers have 64 bits
-/

namespace ScriptLang

/-- The range of decimal exponents that are written in positions. -/
structure FloatLayout where
  least : Int
  greatest : Int

/-- From `10 ^ -4` up to below `10 ^ 16` numbers are written in positions. -/
def floatLayout : FloatLayout := ⟨-4, 15⟩

/-- Digits in positions, the point after the first `point` of them; at least one digit stands on
either side of it. -/
def positional (digits : List Char) (point : Int) : List Char :=
  if point ≤ 0 then '0' :: '.' :: List.replicate (-point).toNat '0' ++ digits
  else if digits.length ≤ point.toNat then
    digits ++ List.replicate (point.toNat - digits.length) '0' ++ ['.', '0']
  else digits.take point.toNat ++ '.' :: digits.drop point.toNat

/-- Digits with an exponent: the point stands after the first digit, if others follow. -/
def scientific (digits : List Char) (exponent : Int) : List Char :=
  let mantissa :=
    match digits with
    | first :: second :: rest => first :: '.' :: second :: rest
    | digits => digits
  mantissa ++ 'e' :: (toString exponent).toList

/-- The text of a positive decimal. -/
def Decimal.text (d : Decimal) : List Char :=
  let digits := Nat.toDigits 10 d.digits
  let exponent := digits.length + d.exponent - 1
  if floatLayout.least ≤ exponent ∧ exponent ≤ floatLayout.greatest then
    positional digits (exponent + 1)
  else scientific digits exponent

/-- The text of a double: the fewest digits that read back. -/
def floatText (x : Float) : String :=
  let signed (negative : Bool) (text : List Char) : String :=
    String.ofList (if negative then '-' :: text else text)
  match Binary64.ofFloat x with
  | .nan => "NaN"
  | .infinite negative => signed negative ['i', 'n', 'f']
  | .finite negative mantissa exponent =>
    signed negative <|
      if mantissa = 0 then ['0', '.', '0']
      else (RoundingInterval.ofParts mantissa exponent).shortest.text

/-- The number that a list of decimal digits denotes. -/
def natOfDigits (digits : List Char) : Nat := Nat.ofDigitChars 10 digits 0

@[simp] theorem natOfDigits_toDigits (n : Nat) : natOfDigits (Nat.toDigits 10 n) = n :=
  Nat.ofDigitChars_toDigits (by decide) (by decide)

/-- The double nearest to `whole.fraction`. -/
def floatOfDigits (whole fraction : List Char) : Float :=
  Float.ofScientific (natOfDigits (whole ++ fraction)) true fraction.length

/-- The 64-bit integer of a value, if there is one. -/
def int64OfInt? (n : Int) : Option Int64 :=
  if (Int64.ofInt n).toInt = n then some (Int64.ofInt n) else none

/-- The integer that a text denotes: decimal digits after at most one sign, within 64 bits. -/
def int64OfText? (text : List Char) : Option Int64 :=
  let ofDigits (negative : Bool) (digits : List Char) : Option Int64 :=
    if digits ≠ [] ∧ digits.all Char.isDigit then
      int64OfInt? (if negative then -(natOfDigits digits : Int) else natOfDigits digits)
    else none
  match text with
  | '-' :: digits => ofDigits true digits
  | '+' :: digits => ofDigits false digits
  | digits => ofDigits false digits

/-- The text of an integer. -/
def int64Text (n : Int64) : String := toString n.toInt

theorem int64OfInt?_eq_some_iff {n : Int} {i : Int64} :
    int64OfInt? n = some i ↔ i.toInt = n := by
  unfold int64OfInt?
  split
  · next h =>
    rw [Option.some_inj]
    exact ⟨fun hi => hi ▸ h, fun hi => hi ▸ Int64.ofInt_toInt i⟩
  · next h =>
    refine ⟨fun hi => absurd hi (by simp), fun hi => absurd ?_ h⟩
    rw [← hi, Int64.ofInt_toInt]

/-- There is none exactly for the values outside of 64 bits. -/
theorem int64OfInt?_eq_none_iff {n : Int} :
    int64OfInt? n = none ↔ n < Int64.minValue.toInt ∨ Int64.maxValue.toInt < n := by
  rw [Option.eq_none_iff_forall_not_mem]
  simp only [Option.mem_def, int64OfInt?_eq_some_iff]
  have hmin : Int64.minValue.toInt = -9223372036854775808 := Int64.toInt_minValue
  have hmax : Int64.maxValue.toInt = 9223372036854775807 := Int64.toInt_maxValue
  rw [hmin, hmax]
  constructor
  · intro h
    by_cases hlow : n < -9223372036854775808
    · exact Or.inl hlow
    by_cases hhigh : n < 9223372036854775808
    · exact absurd (Int64.toInt_ofInt_of_le (Int.not_lt.1 hlow) hhigh) (h (Int64.ofInt n))
    · exact Or.inr (by omega)
  · rintro h i rfl
    have hlow : -9223372036854775808 ≤ i.toInt := i.le_toInt
    have hhigh : i.toInt < 9223372036854775808 := i.toInt_lt
    omega

end ScriptLang
