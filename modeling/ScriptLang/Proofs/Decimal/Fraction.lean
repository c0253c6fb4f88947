import Mathlib
import ScriptLang.Decimal.Text
import ScriptLang.Proofs.Decimal.Conversion

/-!
# The double of a decimal fraction

A literal with a point is read as the double nearest to the number that its digits denote by their places.
If there are few digits, two doubles are divided that are exact themselves; otherwise whole numbers are
divided, with as many bits of the quotient as a double has.

## Main definitions

* `placeValue`: the number that decimal digits denote
* `fractionValue`: the number that is written with a point

## Main results

* `exists_roundsTo_div`: the quotient of two doubles is the nearest one to the exact quotient
* `floatOfDigits_isNearest`: a decimal fraction is read as its nearest double
-/

namespace ScriptLang

open Float.Model Float.Model.UnpackedFloat

/-! ### Digits -/

/-- The number that decimal digits denote, each by its place. -/
def placeValue (digits : List Char) : ℕ :=
  Nat.ofDigits 10 (digits.reverse.map fun d => d.toNat - '0'.toNat)

/-- The number that is written `whole.fraction`. -/
def fractionValue (whole fraction : List Char) : ℚ :=
  placeValue whole + placeValue fraction / 10 ^ fraction.length

theorem natOfDigits_eq_placeValue (digits : List Char) : natOfDigits digits = placeValue digits := by
  induction digits using List.reverseRecOn with
  | nil => rfl
  | append_singleton digits d ih =>
    rw [natOfDigits, Nat.ofDigitChars] at ih ⊢
    rw [placeValue] at ih ⊢
    rw [List.foldl_append, ih, List.reverse_append, List.map_append, Nat.ofDigits_append]
    simp [Nat.add_comm]

theorem placeValue_append (whole fraction : List Char) :
    placeValue (whole ++ fraction) =
      10 ^ fraction.length * placeValue whole + placeValue fraction := by
  rw [placeValue, List.reverse_append, List.map_append, Nat.ofDigits_append, List.length_map,
    List.length_reverse, Nat.add_comm]
  rfl

theorem fractionValue_eq (whole fraction : List Char) :
    fractionValue whole fraction = natOfDigits (whole ++ fraction) / (10 ^ fraction.length : ℕ) := by
  rw [natOfDigits_eq_placeValue, placeValue_append, fractionValue]
  push_cast
  field_simp

/-! ### Quotients -/

/-- **The quotient of two doubles is the nearest one to the exact quotient.** -/
theorem exists_roundsTo_div {m₁ m₂ : ℕ} {e₁ e₂ : ℤ} (h₁ : 0 < m₁) (h₂ : 0 < m₂)
    (he : -1074 ≤ e₁ - e₂) :
    ∃ m e, RoundsTo (m₁ * 2 ^ e₁ / (m₂ * 2 ^ e₂)) m e ∧
      UnpackedFloat.div .binary64 (.finite .positive m₁ e₁ h₁) (.finite .positive m₂ e₂ h₂) =
        unpackedOfParts .positive m e := by
  -- The quotient gets the bits of a double, unless it is near to zero.
  obtain ⟨t, ht⟩ : ∃ t, min (e₁ - e₂)
      (Format.binary64.targetExponent (totalExponent m₁ e₁ - totalExponent m₂ e₂)) = t := ⟨_, rfl⟩
  obtain ⟨s, hs⟩ : ∃ s : ℕ, e₁ - e₂ = t + s := ⟨(e₁ - e₂ - t).toNat, by omega⟩
  have htarget : t = min (e₁ - e₂) (max ((m₁.log2 : ℤ) + e₁ - (m₂.log2 + e₂) - 53) (-1074)) := by
    rw [← ht]
    simp only [Format.targetExponent, totalExponent, Format.mantissaBits, Format.minExponent]
    omega
  have hlow : -1074 ≤ t := by omega
  have hbits : HasAllBits (m₁ * 2 ^ s / m₂) t := by
    by_cases hleast : t = -1074
    · exact Or.inr hleast
    left
    have hlength : 53 + m₂.log2 ≤ m₁.log2 + s := by omega
    have hquotient : 2 ^ 52 ≤ m₁ * 2 ^ s / m₂ := by
      rw [Nat.le_div_iff_mul_le h₂]
      calc 2 ^ 52 * m₂ ≤ 2 ^ 52 * 2 ^ (m₂.log2 + 1) := Nat.mul_le_mul_left _ Nat.lt_log2_self.le
        _ = 2 ^ (53 + m₂.log2) := by ring
        _ ≤ 2 ^ (m₁.log2 + s) := Nat.pow_le_pow_right two_pos hlength
        _ = 2 ^ m₁.log2 * 2 ^ s := Nat.pow_add ..
        _ ≤ m₁ * 2 ^ s := Nat.mul_le_mul_right _ (Nat.log2_self_le h₁.ne')
    exact (Nat.le_log2 (by omega)).2 hquotient
  have hvalue : (m₁ * 2 ^ e₁ / (m₂ * 2 ^ e₂) : ℚ) = (m₁ * 2 ^ s : ℕ) / m₂ * 2 ^ t := by
    have hsplit : (2 : ℚ) ^ e₁ = 2 ^ t * 2 ^ s * 2 ^ e₂ := by
      rw [← zpow_natCast, ← zpow_add₀ two_ne_zero, ← hs, ← zpow_add₀ two_ne_zero, sub_add_cancel]
    rw [hsplit]
    push_cast
    field_simp
  obtain ⟨m, e, hrounds, hround⟩ := exists_roundsTo (Represents.div (m₁ * 2 ^ s) h₂) hbits hlow
  refine ⟨m, e, hvalue ▸ hrounds, ?_⟩
  have hcore : divCore .binary64 m₁ e₁ m₂ e₂ =
      (m₁ * 2 ^ s / m₂, t, accuracyOfFraction (m₁ * 2 ^ s % m₂) m₂) := by
    have hshift : (e₁ - e₂ - t).toNat = s := by omega
    rw [divCore, ht, hshift, Nat.shiftLeft_eq]
  rw [UnpackedFloat.div, hcore]
  exact hround

/-- Zero is the nearest double to a number that is less than half of the least double. -/
theorem roundsTo_zero {q : ℚ} (hnonneg : 0 ≤ q) (hsmall : q < 2 ^ (-1075 : ℤ)) :
    RoundsTo q 0 (-1074) where
  fits := by decide
  least := le_rfl
  full := Or.inr rfl
  near := by
    have hhalf : (2 : ℚ) ^ (-1075 : ℤ) = 2 ^ (-1074 : ℤ) / 2 := zpow_sub_one₀ two_ne_zero (-1074)
    rw [Nat.cast_zero, zero_mul, zero_sub, abs_neg, abs_of_nonneg hnonneg, ← hhalf]
    exact hsmall.le
  even _ := Even.zero
  bottom h := absurd h (by decide)

/-- An unpacked double is a given number, with an exponent neither much below zero nor much above. -/
def IsWhole (n : ℕ) : UnpackedFloat → Prop
  | .finite .positive m e _ => -52 ≤ e ∧ e ≤ 21 ∧ m * 2 ^ (e + 52).toNat = n * 2 ^ 52
  | _ => False

instance (n : ℕ) (u : UnpackedFloat) : Decidable (IsWhole n u) :=
  match u with
  | .finite .positive m e _ =>
    inferInstanceAs (Decidable (-52 ≤ e ∧ e ≤ 21 ∧ m * 2 ^ (e + 52).toNat = n * 2 ^ 52))
  | .finite .negative .. | .infinity _ | .notANumber | .zero _ => inferInstanceAs (Decidable False)

theorem IsWhole.exists_finite {n : ℕ} {u : UnpackedFloat} (h : IsWhole n u) :
    ∃ (m : ℕ) (e : ℤ) (hpos : 0 < m), u = .finite .positive m e hpos ∧ (m : ℚ) * 2 ^ e = n ∧
      -52 ≤ e ∧ e ≤ 21 := by
  obtain s | _ | s | ⟨_ | _, m, e, hpos⟩ := u
  case finite.positive =>
    obtain ⟨hlow, hhigh, hvalue⟩ := h
    refine ⟨m, e, hpos, rfl, ?_, hlow, hhigh⟩
    obtain ⟨k, hk⟩ : ∃ k : ℕ, e = k - 52 := ⟨(e + 52).toNat, by omega⟩
    have hshift : (e + 52).toNat = k := by omega
    rw [hshift] at hvalue
    rw [hk, zpow_sub₀ two_ne_zero, zpow_natCast, ← mul_div_assoc, div_eq_iff (by norm_num)]
    exact_mod_cast hvalue
  all_goals exact h.elim

/-- The powers of ten that are divided by are exact. -/
theorem isWhole_powerOfTen (k : Fin Float.exactlyRepresentablePowersOfTen.size) :
    IsWhole (10 ^ k.val) Float.exactlyRepresentablePowersOfTen[k].toModel.unpack := by
  revert k
  decide +kernel

/-- Numbers of at most 53 bits are exact. -/
theorem isWhole_toFloat {n : ℕ} (hpos : n ≠ 0) (hlt : n < 2 ^ 53) :
    IsWhole n (UInt64.ofNat n).toFloat.toModel.unpack := by
  have hlog : n.log2 ≤ 52 := by
    have := (Nat.log2_lt hpos).2 hlt
    omega
  obtain ⟨⟨sign, m, e, hfull, hfits⟩, hunpack, hsign, hmantissa, hexponent⟩ := exists_toFloat hpos hlog
  dsimp only at hsign hmantissa hexponent
  subst hsign hmantissa hexponent
  rw [hunpack, NormalDouble.unpacked]
  change -52 ≤ (n.log2 : ℤ) - 52 ∧ (n.log2 : ℤ) - 52 ≤ 21 ∧ _
  refine ⟨by omega, by omega, ?_⟩
  have hshift : ((n.log2 : ℤ) - 52 + 52).toNat = n.log2 := by omega
  rw [hshift, Nat.mul_assoc, ← Nat.pow_add, Nat.sub_add_cancel hlog]

/-- With few digits two exact doubles are divided. -/
theorem exists_roundsTo_few {n k : ℕ} (hpos : n ≠ 0) (hn : n < 2 ^ 53) (hk : k ≤ 22) :
    ∃ m e, RoundsTo (n / (10 ^ k : ℕ)) m e ∧
      Float.ofScientific n true k = packed (unpackedOfParts .positive m e) := by
  obtain ⟨m₁, e₁, hpos₁, hunpack₁, hvalue₁, hlow₁, hhigh₁⟩ := (isWhole_toFloat hpos hn).exists_finite
  obtain ⟨m₂, e₂, hpos₂, hunpack₂, hvalue₂, hlow₂, hhigh₂⟩ :=
    (isWhole_powerOfTen ⟨k, Nat.lt_succ_of_le hk⟩).exists_finite
  -- Both are exact, so only the division rounds.
  obtain ⟨m, e, hrounds, hdiv⟩ := exists_roundsTo_div hpos₁ hpos₂ (by omega : -1074 ≤ e₁ - e₂)
  refine ⟨m, e, by rwa [← hvalue₁, ← hvalue₂], ?_⟩
  rw [← hdiv, ← hunpack₁, ← hunpack₂, Float.ofScientific, dif_pos ⟨hn, hk⟩]
  rfl

/-- A decimal with many places is near to zero. -/
theorem div_pow_lt {n k c : ℕ} (h : n.log2 + c < k) : (n / (10 ^ k : ℕ) : ℚ) < 2 ^ (-c : ℤ) := by
  have hpow : n * 2 ^ c < 10 ^ k :=
    calc n * 2 ^ c < 2 ^ (n.log2 + 1) * 2 ^ c :=
          Nat.mul_lt_mul_of_pos_right Nat.lt_log2_self (Nat.two_pow_pos _)
      _ = 2 ^ (n.log2 + 1 + c) := (Nat.pow_add ..).symm
      _ ≤ 2 ^ k := Nat.pow_le_pow_right two_pos (by omega)
      _ ≤ 10 ^ k := Nat.pow_le_pow_left (by decide) k
  rw [zpow_neg, zpow_natCast, div_lt_iff₀ (by positivity), ← div_eq_inv_mul,
    lt_div_iff₀ (by positivity)]
  exact_mod_cast hpow

/-- With many digits whole numbers are divided, unless the quotient is far too small. -/
theorem exists_roundsTo_many {n k : ℕ} (hpos : n ≠ 0) (hk : 0 < k)
    (hmany : ¬(n < 2 ^ 53 ∧ k ≤ 22)) :
    ∃ m e, RoundsTo (n / (10 ^ k : ℕ)) m e ∧
      Float.ofScientific n true k = packed (unpackedOfParts .positive m e) := by
  have hdef : Float.ofScientific n true k =
      packed (UnpackedFloat.ofScientific .binary64 n (Int.negOfNat k)) := by
    rw [Float.ofScientific, dif_neg hmany]
    rfl
  have hneg : Int.negOfNat k = -(k : ℤ) := Int.negOfNat_eq
  have hsmall : ¬(-(k : ℤ) > 2 ^ 11) := by omega
  rw [hdef, hneg, UnpackedFloat.ofScientific, dif_neg hpos, if_neg hsmall]
  by_cases htiny : -(k : ℤ) < -((2 ^ 11 : ℤ) + n.log2)
  · refine ⟨0, -1074, roundsTo_zero (by positivity) (div_pow_lt (c := 1075) (by omega)), ?_⟩
    rw [if_pos htiny]
    rfl
  · -- Whole numbers have the exponent zero.
    have hten : 0 < 10 ^ k := pow_pos (by decide) k
    obtain ⟨m, e, hrounds, hdiv⟩ :=
      exists_roundsTo_div (Nat.pos_of_ne_zero hpos) hten (by decide : -1074 ≤ (0 : ℤ) - 0)
    have hpower : (- -(k : ℤ)).toNat = k := by omega
    refine ⟨m, e, by simpa using hrounds, ?_⟩
    rw [if_neg htiny, if_neg (by omega), ← hdiv]
    simp only [hpower]

theorem exists_roundsTo_zero (k : ℕ) :
    ∃ m e, RoundsTo ((0 : ℕ) / (10 ^ k : ℕ)) m e ∧
      Float.ofScientific 0 true k = packed (unpackedOfParts .positive m e) := by
  refine ⟨0, -1074, roundsTo_zero (by simp) (by simp), ?_⟩
  by_cases hk : k ≤ 22
  · obtain ⟨m, e, hpos, hunpack, -⟩ := (isWhole_powerOfTen ⟨k, Nat.lt_succ_of_le hk⟩).exists_finite
    have hdiv : UnpackedFloat.div .binary64 (.zero .positive) (.finite .positive m e hpos) =
        unpackedOfParts .positive 0 (-1074) := rfl
    rw [← hdiv, ← hunpack, Float.ofScientific, dif_pos ⟨by decide, hk⟩]
    rfl
  · rw [Float.ofScientific, dif_neg fun h => hk h.2]
    rfl

/-- **A decimal is read as its nearest double.** -/
theorem ofScientific_isNearest (n : ℕ) {k : ℕ} (hk : 0 < k) :
    IsNearest (n / (10 ^ k : ℕ)) (Float.ofScientific n true k) := by
  obtain ⟨m, e, hrounds, hdef⟩ : ∃ m e, RoundsTo (n / (10 ^ k : ℕ)) m e ∧
      Float.ofScientific n true k = packed (unpackedOfParts .positive m e) := by
    by_cases hzero : n = 0
    · exact hzero ▸ exists_roundsTo_zero k
    by_cases hfew : n < 2 ^ 53 ∧ k ≤ 22
    · exact exists_roundsTo_few hzero hfew.1 hfew.2
    · exact exists_roundsTo_many hzero hk hfew
  exact hdef ▸ hrounds.isNearest

/-- **A decimal fraction is read as its nearest double.** -/
theorem floatOfDigits_isNearest (whole : List Char) {fraction : List Char} (h : fraction ≠ []) :
    IsNearest (fractionValue whole fraction) (floatOfDigits whole fraction) := by
  rw [fractionValue_eq, floatOfDigits]
  exact ofScientific_isNearest _ (List.length_pos_iff.2 h)

end ScriptLang
