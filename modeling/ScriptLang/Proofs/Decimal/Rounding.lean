import Mathlib
import ScriptLang.Proofs.Decimal.Nearest

/-!
# How a double is rounded

A result of arithmetic is given by its leading bits and by what they leave of it: nothing, less than half a
unit, half a unit, or more. Its bits are shifted out until they fit, which keeps track of what they leave,
and the rest decides how the mantissa is rounded. If this makes the mantissa too long by one bit, that bit
is zero and a second shift loses nothing.

## Main definitions

* `Represents`: a mantissa and two bits stand for a number
* `unpackedOfParts`: a mantissa and an exponent as an unpacked double

## Main results

* `Represents.shiftRight`: shifts keep track of the number
* `roundWithAccuracy_eq`: a mantissa is shifted once, rounded, and shifted again if it has become longer
* `exists_roundsTo`: what is rounded is the nearest double
* `ofFloat_packed`: the parts of a double are read off its bits
* `RoundsTo.isNearest`, `IsNearest.unique`: the double of a rounding is the nearest one, and the only one
-/

namespace ScriptLang

open Float.Model Float.Model.UnpackedFloat

/-! ### What is left behind a mantissa -/

/-- The number that a mantissa and the bits behind it stand for. The first bit is half a unit, and the other
tells whether there is more. -/
def Represents (em : ExtendedMantissa) (x : ℚ) : Prop :=
  match em.roundBit, em.stickyBit with
  | false, false => x = em.mantissa
  | false, true => em.mantissa < x ∧ x < em.mantissa + 1 / 2
  | true, false => x = em.mantissa + 1 / 2
  | true, true => em.mantissa + 1 / 2 < x ∧ x < em.mantissa + 1

namespace Represents

variable {em : ExtendedMantissa} {x : ℚ}

theorem bounds (h : Represents em x) : em.mantissa ≤ x ∧ x < em.mantissa + 1 := by
  obtain ⟨m, round, sticky⟩ := em
  cases round <;> cases sticky <;> simp only [Represents] at h ⊢ <;> constructor <;> linarith

theorem shiftRightOne (h : Represents em x) : Represents em.shiftRightOne (x / 2) := by
  -- The last bit of the mantissa becomes the first one behind it, and what was there becomes the rest.
  obtain ⟨m, round, sticky⟩ := em
  obtain ⟨n, rfl | rfl⟩ : ∃ n, m = 2 * n ∨ m = 2 * n + 1 := ⟨m / 2, by omega⟩
  · have hhalf : 2 * n / 2 = n := by omega
    have hbit : (2 * n % 2 != 0) = false := by simp
    cases round <;> cases sticky <;>
      simp only [Represents, ExtendedMantissa.shiftRightOne, hhalf, hbit, Bool.or_false, Bool.or_true,
        Nat.cast_mul, Nat.cast_ofNat] at h ⊢ <;>
      (try constructor) <;> linarith
  · have hhalf : (2 * n + 1) / 2 = n := by omega
    have hbit : ((2 * n + 1) % 2 != 0) = true := by simp [Nat.add_mod]
    cases round <;> cases sticky <;>
      simp only [Represents, ExtendedMantissa.shiftRightOne, hhalf, hbit, Bool.or_false, Bool.or_true,
        Nat.cast_add, Nat.cast_one, Nat.cast_mul, Nat.cast_ofNat] at h ⊢ <;>
      (try constructor) <;> linarith

/-- Bits that are shifted out are kept track of. -/
theorem shiftRight (h : Represents em x) (k : ℕ) : Represents (em >>> k) (x / 2 ^ k) := by
  induction k with
  | zero => simpa [HShiftRight.hShiftRight, Nat.repeat] using h
  | succ k ih =>
    rw [pow_succ, ← div_div]
    exact ih.shiftRightOne

/-- The rounded mantissa is the nearest whole number, and the even one of two. -/
theorem rounded (h : Represents em x) :
    |em.roundedMantissa - x| ≤ 1 / 2 ∧ (|em.roundedMantissa - x| = 1 / 2 → Even em.roundedMantissa) := by
  obtain ⟨m, round, sticky⟩ := em
  cases round <;> cases sticky <;>
    simp only [Represents, ExtendedMantissa.roundedMantissa, ExtendedMantissa.accuracy,
      Accuracy.roundToNearestEven] at h ⊢
  · subst h
    norm_num
  · rw [abs_sub_comm, abs_of_pos (by linarith)]
    exact ⟨by linarith, fun heq => absurd heq (by linarith)⟩
  · subst h
    -- Half a unit: the mantissa is made even.
    obtain ⟨n, rfl | rfl⟩ : ∃ n, m = 2 * n ∨ m = 2 * n + 1 := ⟨m / 2, by omega⟩
    · simp
    · have hodd : (2 * n + 1) % 2 = 1 := by omega
      rw [hodd]
      push_cast
      norm_num
      exact ⟨n + 1, by ring⟩
  · push_cast
    rw [abs_of_pos (by linarith)]
    exact ⟨by linarith, fun heq => absurd heq (by linarith)⟩

/-- A quotient and its remainder. -/
theorem div (a : ℕ) {b : ℕ} (hb : 0 < b) :
    Represents (.ofMantissaAndAccuracy (a / b) (accuracyOfFraction (a % b) b)) (a / b) := by
  have hpos : (0 : ℚ) < b := by exact_mod_cast hb
  obtain ⟨n, r, hr, rfl⟩ : ∃ n r, r < b ∧ a = b * n + r :=
    ⟨a / b, a % b, Nat.mod_lt _ hb, (Nat.div_add_mod a b).symm⟩
  have hquotient : (b * n + r) / b = n := by
    rw [Nat.mul_add_div hb, Nat.div_eq_of_lt hr, Nat.add_zero]
  have hrest : (b * n + r) % b = r := by rw [Nat.mul_add_mod, Nat.mod_eq_of_lt hr]
  have hvalue : ((b * n + r : ℕ) : ℚ) / b = n + r / b := by
    push_cast
    field_simp
  have hunit : (r : ℚ) / b < 1 := (div_lt_one hpos).2 (by exact_mod_cast hr)
  rw [hquotient, hrest, hvalue, accuracyOfFraction]
  split
  · next hzero =>
    subst hzero
    simp [Represents, ExtendedMantissa.ofMantissaAndAccuracy]
  · next hne =>
    -- Something is left, and the divisor tells on which side of the middle it is.
    have hmore : (0 : ℚ) < r / b := div_pos (by exact_mod_cast Nat.pos_of_ne_zero hne) hpos
    rcases lt_trichotomy (2 * r) b with hlt | heq | hgt
    · have hhalf : (r : ℚ) / b < 1 / 2 := by
        rw [div_lt_div_iff₀ hpos two_pos]
        exact_mod_cast (by omega : r * 2 < 1 * b)
      rw [Nat.compare_eq_lt.2 hlt]
      simp only [Represents, ExtendedMantissa.ofMantissaAndAccuracy]
      constructor <;> linarith
    · have hhalf : (r : ℚ) / b = 1 / 2 := by
        rw [div_eq_div_iff hpos.ne' two_ne_zero]
        exact_mod_cast (by omega : r * 2 = 1 * b)
      rw [Nat.compare_eq_eq.2 heq, hhalf]
      rfl
    · have hhalf : 1 / 2 < (r : ℚ) / b := by
        rw [div_lt_div_iff₀ two_pos hpos]
        exact_mod_cast (by omega : 1 * b < r * 2)
      rw [Nat.compare_eq_gt.2 hgt]
      simp only [Represents, ExtendedMantissa.ofMantissaAndAccuracy]
      constructor <;> linarith

end Represents

theorem mantissa_shiftRight (em : ExtendedMantissa) (k : ℕ) :
    (em >>> k).mantissa = em.mantissa / 2 ^ k := by
  induction k with
  | zero => exact (Nat.div_one _).symm
  | succ k ih =>
    calc (em >>> (k + 1)).mantissa
        = (em >>> k).mantissa / 2 := rfl
      _ = em.mantissa / 2 ^ (k + 1) := by rw [ih, Nat.div_div_eq_div_mul, Nat.pow_succ]

/-- Zeros that are shifted out leave no trace. -/
theorem shiftRight_zeros (m k : ℕ) :
    (⟨m * 2 ^ k, false, false⟩ : ExtendedMantissa) >>> k = ⟨m, false, false⟩ := by
  induction k generalizing m with
  | zero => simp [HShiftRight.hShiftRight, Nat.repeat]
  | succ k ih =>
    have hdouble : m * 2 ^ (k + 1) = m * 2 * 2 ^ k := by ring
    calc (⟨m * 2 ^ (k + 1), false, false⟩ : ExtendedMantissa) >>> (k + 1)
        = ((⟨m * 2 * 2 ^ k, false, false⟩ : ExtendedMantissa) >>> k).shiftRightOne := by
          rw [hdouble]
          rfl
      _ = ⟨m, false, false⟩ := by simp [ih, ExtendedMantissa.shiftRightOne]

theorem roundedMantissa_bounds (em : ExtendedMantissa) :
    em.mantissa ≤ em.roundedMantissa ∧ em.roundedMantissa ≤ em.mantissa + 1 := by
  obtain ⟨m, round, sticky⟩ := em
  cases round <;> cases sticky <;>
    simp [ExtendedMantissa.roundedMantissa, ExtendedMantissa.accuracy, Accuracy.roundToNearestEven]
  omega

@[simp] theorem mantissa_ofMantissaAndAccuracy (m : ℕ) (accuracy : Accuracy) :
    (ExtendedMantissa.ofMantissaAndAccuracy m accuracy).mantissa = m := by
  obtain _ | (_ | _ | _) := accuracy <;> rfl

/-! ### Rounding -/

/-- A mantissa and an exponent as an unpacked double. -/
def unpackedOfParts (sign : UnpackedFloat.Sign) (mantissa : ℕ) (exponent : ℤ) : UnpackedFloat :=
  if h : mantissa = 0 then .zero sign else .finite sign mantissa exponent (Nat.pos_of_ne_zero h)

/-- The mantissa has all the bits that a double has, or the exponent is the least. -/
def HasAllBits (m : ℕ) (e : ℤ) : Prop := 52 ≤ m.log2 ∨ e = -1074

section Shift

variable {m k r : ℕ} {e : ℤ} (hk : m.log2 - 52 = k) (hbits : HasAllBits m e) (he : -1074 ≤ e + k)
include hk hbits he

/-- How far a mantissa is shifted to fit. -/
theorem shiftToTargetExponent_eq (accuracy : Accuracy) :
    shiftToTargetExponent .binary64 m e accuracy =
      (ExtendedMantissa.ofMantissaAndAccuracy m accuracy >>> k, e + k) := by
  have htarget : Format.binary64.targetExponent (totalExponent m e) = e + k := by
    simp only [Format.targetExponent, totalExponent, Format.mantissaBits, Format.minExponent]
    unfold HasAllBits at hbits
    omega
  have hshift : (e + k - e).toNat = k := by omega
  rw [shiftToTargetExponent, htarget, shiftToExponent, hshift]

/-- What is left of a mantissa fits, and uses all the bits. -/
theorem shifted_bounds : m / 2 ^ k < 2 ^ 53 ∧ (2 ^ 52 ≤ m / 2 ^ k ∨ e + k = -1074) := by
  constructor
  · rw [Nat.div_lt_iff_lt_mul (Nat.two_pow_pos k), ← Nat.pow_add]
    exact Nat.lt_log2_self.trans_le (Nat.pow_le_pow_right two_pos (by omega))
  · by_cases hlog : 52 ≤ m.log2
    · have hne : m ≠ 0 := by
        rintro rfl
        exact absurd hlog (by decide)
      left
      rw [Nat.le_div_iff_mul_le (Nat.two_pow_pos k), ← Nat.pow_add]
      exact le_trans (Nat.pow_le_pow_right two_pos (by omega)) (Nat.log2_self_le hne)
    · right
      have := hbits.resolve_left hlog
      omega

/-- **The rounding of a mantissa.** It is shifted until it fits, and rounded. If this makes it longer, which
is so only at a power of two, it is shifted once more. -/
theorem roundWithAccuracy_eq (sign : UnpackedFloat.Sign) (accuracy : Accuracy)
    (hr : (ExtendedMantissa.ofMantissaAndAccuracy m accuracy >>> k).roundedMantissa = r) :
    r ≤ 2 ^ 53 ∧ (2 ^ 52 ≤ r ∨ e + k = -1074) ∧
      roundWithAccuracy .binary64 sign m e accuracy =
        if r < 2 ^ 53 then unpackedOfParts sign r (e + k)
        else unpackedOfParts sign (2 ^ 52) (e + k + 1) := by
  obtain ⟨hfits, hfull⟩ := shifted_bounds hk hbits he
  have hbounds := roundedMantissa_bounds (ExtendedMantissa.ofMantissaAndAccuracy m accuracy >>> k)
  rw [mantissa_shiftRight, mantissa_ofMantissaAndAccuracy, hr] at hbounds
  have hfull' : 2 ^ 52 ≤ r ∨ e + k = -1074 := hfull.imp_left fun h => h.trans hbounds.1
  have hround : roundWithAccuracy .binary64 sign m e accuracy =
      (let (final, exponent) := shiftToTargetExponent .binary64 r (e + k) .exact
       unpackedOfParts sign final.mantissa exponent) := by
    subst hr
    rw [roundWithAccuracy, shiftToTargetExponent_eq hk hbits he]
    rfl
  have hlong : r ≤ 2 ^ 53 := by omega
  refine ⟨hlong, hfull', ?_⟩
  rw [hround]
  by_cases hlt : r < 2 ^ 53
  · have hbits' : HasAllBits r (e + k) := hfull'.imp_left fun h => (Nat.le_log2 (by omega)).2 h
    have hlog : r.log2 - 52 = 0 := by
      by_cases hzero : r = 0
      · rw [hzero]
        rfl
      · have := (Nat.log2_lt hzero).2 hlt
        omega
    rw [if_pos hlt, shiftToTargetExponent_eq hlog hbits' (by omega)]
    simp [HShiftRight.hShiftRight, Nat.repeat]
  · obtain rfl : r = 2 ^ 52 * 2 ^ 1 := by omega
    have hlog : (2 ^ 52 * 2 ^ 1).log2 = 53 := by decide
    have hbits' : HasAllBits (2 ^ 52 * 2 ^ 1) (e + k) := Or.inl (by omega)
    rw [if_neg hlt, shiftToTargetExponent_eq (by rw [hlog]) hbits' (by omega)]
    simp only [ExtendedMantissa.ofMantissaAndAccuracy, shiftRight_zeros]
    rfl

end Shift

/-- **What is rounded is the nearest double**, where the exponents of doubles do not end. -/
theorem exists_roundsTo {m : ℕ} {e : ℤ} {accuracy : Accuracy} {x : ℚ}
    (hx : Represents (.ofMantissaAndAccuracy m accuracy) x) (hbits : HasAllBits m e)
    (he : -1074 ≤ e) :
    ∃ m' e', RoundsTo (x * 2 ^ e) m' e' ∧
      roundWithAccuracy .binary64 .positive m e accuracy = unpackedOfParts .positive m' e' := by
  obtain ⟨k, hk⟩ : ∃ k, m.log2 - 52 = k := ⟨_, rfl⟩
  obtain ⟨r, hr⟩ : ∃ r, (ExtendedMantissa.ofMantissaAndAccuracy m accuracy >>> k).roundedMantissa = r :=
    ⟨_, rfl⟩
  obtain ⟨hlong, hfull, hround⟩ := roundWithAccuracy_eq hk hbits (by omega) .positive accuracy hr
  -- In units of the last bit that is kept, the number is `y`.
  obtain ⟨y, hy⟩ : ∃ y, x / 2 ^ k = y := ⟨_, rfl⟩
  have hshifted := hx.shiftRight k
  obtain ⟨hnear, heven⟩ := hshifted.rounded
  have hfloor := hshifted.bounds.1
  rw [hy, hr] at hnear heven
  rw [hy, mantissa_shiftRight, mantissa_ofMantissaAndAccuracy] at hfloor
  have hunit : (0 : ℚ) < 2 ^ (e + k) := zpow_pos two_pos _
  have hvalue : x * 2 ^ e = y * 2 ^ (e + k) := by
    rw [← hy, zpow_add₀ two_ne_zero, zpow_natCast]
    field_simp
  have hdistance : |(r : ℚ) * 2 ^ (e + k) - y * 2 ^ (e + k)| = |r - y| * 2 ^ (e + k) := by
    rw [← sub_mul, abs_mul, abs_of_pos hunit]
  rw [hround, hvalue]
  by_cases hlt : r < 2 ^ 53
  · refine ⟨r, e + k, ⟨⟨hlt, by omega, hfull⟩, ?_, fun heq => heven ?_, fun hpower hnormal => ?_⟩,
      if_pos hlt⟩
    · rw [hdistance]
      nlinarith
    · rw [hdistance, div_eq_inv_mul] at heq
      rw [mul_right_cancel₀ hunit.ne' heq, one_div]
    · -- Only what is not below a power of two is rounded to it with this exponent.
      have hlow : 2 ^ 52 ≤ m / 2 ^ k := ((shifted_bounds hk hbits (by omega)).2).resolve_right (by omega)
      have : (2 ^ 52 : ℚ) ≤ (m / 2 ^ k : ℕ) := by exact_mod_cast hlow
      rw [hpower]
      push_cast
      nlinarith
  · -- The mantissa has become a power of two, one bit too long.
    obtain rfl : r = 2 ^ 53 := by omega
    have hcarry : (2 : ℚ) ^ (e + k + 1) = 2 * 2 ^ (e + k) := by
      rw [zpow_add_one₀ two_ne_zero, mul_comm]
    have hclose := abs_le.1 hnear
    push_cast at hclose
    refine ⟨2 ^ 52, e + k + 1, ⟨⟨by decide, by omega, Or.inl le_rfl⟩, ?_, fun _ => by decide,
      fun _ _ => ?_⟩, if_neg hlt⟩
    · rw [hcarry, abs_le]
      push_cast
      constructor <;> nlinarith
    · rw [hcarry]
      push_cast
      nlinarith

/-! ### Packing -/

/-- The double of an unpacked one. -/
def packed (u : UnpackedFloat) : Float := .ofModel (.pack u)

theorem toNat_packComponents (field : BitVec 11) (fraction : BitVec 52) :
    (packComponents .binary64 .positive field fraction).toNat =
      false.toNat * 2 ^ 63 + field.toNat * 2 ^ 52 + fraction.toNat := by
  have hsign : (UnpackedFloat.Sign.positive.toBitVec ++ field).toNat = field.toNat := by
    rw [BitVec.toNat_append]
    simp [UnpackedFloat.Sign.toBitVec]
  rw [packComponents, BitVec.toNat_append, hsign, ← Nat.shiftLeft_add_eq_or_of_lt fraction.isLt,
    Nat.shiftLeft_eq, Bool.toNat_false, Nat.zero_mul, Nat.zero_add]

/-- The parts of a double, from the fields of its bits. -/
theorem ofFloat_of_fields {x : Float} {negative : Bool} {field fraction : ℕ} (hfield : field < 2 ^ 11)
    (hfraction : fraction < 2 ^ 52)
    (hbits : x.toBits.toNat = negative.toNat * 2 ^ 63 + field * 2 ^ 52 + fraction) :
    Binary64.ofFloat x =
      if field = 2047 then if fraction = 0 then .infinite negative else .nan
      else if field = 0 then .finite negative fraction (-1074)
      else .finite negative (fraction + 2 ^ 52) (field - 1075) := by
  have hsign : decide (Binary64.signBit ≤ x.toBits.toNat) = negative := by
    rw [hbits, Binary64.signBit]
    cases negative
    · exact decide_eq_false (by rw [Bool.toNat_false]; omega)
    · exact decide_eq_true (by rw [Bool.toNat_true]; omega)
  have hhigh : x.toBits.toNat / Binary64.leadingBit % (Binary64.greatestField + 1) = field := by
    rw [hbits, Binary64.leadingBit, Binary64.greatestField]
    omega
  have hlow : x.toBits.toNat % Binary64.leadingBit = fraction := by
    rw [hbits, Binary64.leadingBit]
    omega
  have hexponent : (field : ℤ) + Binary64.leastExponent - 1 = field - 1075 := by
    rw [Binary64.leastExponent]
    omega
  rw [Binary64.ofFloat]
  simp only [hsign, hhigh, hlow, hexponent]
  rfl

theorem exists_fields (x : Float) :
    ∃ (negative : Bool) (field fraction : ℕ), field < 2 ^ 11 ∧ fraction < 2 ^ 52 ∧
      x.toBits.toNat = negative.toNat * 2 ^ 63 + field * 2 ^ 52 + fraction := by
  have hlt := x.toBits.toNat_lt
  refine ⟨decide (2 ^ 63 ≤ x.toBits.toNat), x.toBits.toNat / 2 ^ 52 % 2 ^ 11, x.toBits.toNat % 2 ^ 52,
    Nat.mod_lt _ (by decide), Nat.mod_lt _ (by decide), ?_⟩
  by_cases hsign : 2 ^ 63 ≤ x.toBits.toNat
  · rw [decide_eq_true hsign, Bool.toNat_true]
    omega
  · rw [decide_eq_false hsign, Bool.toNat_false]
    omega

/-- **The parts of a double are read off its bits.** If the exponent is too large, it is infinite. -/
theorem ofFloat_packed {m : ℕ} {e : ℤ} (h : Canonical m e) :
    Binary64.ofFloat (packed (unpackedOfParts .positive m e)) =
      if e ≤ 971 then .finite false m e else .infinite false := by
  obtain ⟨hfits, hleast, hfull⟩ := h
  by_cases hzero : m = 0
  · subst hzero
    obtain rfl : e = -1074 := hfull.resolve_left (by decide)
    rfl
  -- The exponent as it is written down, if the mantissa is full.
  obtain ⟨field, hfield⟩ : ∃ field : ℕ, e = field - 1075 := ⟨(e + 1075).toNat, by omega⟩
  have hbiased : (e + Format.binary64.exponentBias + (52 : ℕ)).toNat = field := by
    simp only [Format.exponentBias]
    omega
  have hpack : UnpackedFloat.pack .binary64 (unpackedOfParts .positive m e) =
      if 2 ^ 11 ≤ field + 1 then packedInfinity .binary64 .positive
      else if m.log2 + 1 = 53 then
        packComponents .binary64 .positive (BitVec.ofNat 11 field) (BitVec.ofNat 52 m)
      else packComponents .binary64 .positive (0#11) (BitVec.ofNat 52 m) := by
    rw [unpackedOfParts, dif_neg hzero, UnpackedFloat.pack]
    simp only [hbiased]
    rfl
  have hbits : (packed (unpackedOfParts .positive m e)).toBits.toNat =
      (UnpackedFloat.pack .binary64 (unpackedOfParts .positive m e)).toNat := rfl
  rw [hpack] at hbits
  by_cases hlarge : 2 ^ 11 ≤ field + 1
  · rw [if_pos hlarge, packedInfinity, toNat_packComponents] at hbits
    have hinfinite : ¬e ≤ 971 := by omega
    rw [if_neg hinfinite, ofFloat_of_fields (by decide) (by decide) hbits]
    rfl
  rw [if_neg hlarge] at hbits
  rw [if_pos (by omega)]
  by_cases hnormal : 2 ^ 52 ≤ m
  · have hlog : m.log2 = 52 := (Nat.log2_eq_iff hzero).2 ⟨hnormal, hfits⟩
    rw [if_pos (by rw [hlog]), toNat_packComponents, BitVec.toNat_ofNat, BitVec.toNat_ofNat,
      Nat.mod_eq_of_lt (by omega)] at hbits
    rw [ofFloat_of_fields (by omega) (Nat.mod_lt _ (by decide)) hbits, if_neg (by omega),
      if_neg (by omega), hfield]
    congr 1
    omega
  · have hlog : m.log2 < 52 := (Nat.log2_lt hzero).2 (by omega)
    have hfraction : (BitVec.ofNat 52 m).toNat = m := by
      rw [BitVec.toNat_ofNat, Nat.mod_eq_of_lt (by omega)]
    rw [if_neg (by omega), toNat_packComponents, hfraction] at hbits
    rw [ofFloat_of_fields (by decide) (by omega) hbits, hfull.resolve_left hnormal]
    rfl

/-- There is a double with any parts of a double. -/
theorem Canonical.exists_float {m : ℕ} {e : ℤ} (h : Canonical m e) (he : e ≤ 971) :
    ∃ x, Binary64.ofFloat x = .finite false m e :=
  ⟨_, (ofFloat_packed h).trans (if_pos he)⟩

/-- Doubles that are a number, or infinite, are told apart by their parts. -/
theorem eq_of_ofFloat {x y : Float} (h : Binary64.ofFloat x = Binary64.ofFloat y)
    (hx : Binary64.ofFloat x ≠ .nan) : x = y := by
  obtain ⟨negative, field, fraction, hfield, hfraction, hbits⟩ := exists_fields x
  obtain ⟨negative', field', fraction', hfield', hfraction', hbits'⟩ := exists_fields y
  rw [ofFloat_of_fields hfield hfraction hbits] at h hx
  rw [ofFloat_of_fields hfield' hfraction' hbits'] at h
  -- The fields are read back from the parts; only those of infinity and NaN have the greatest exponent.
  obtain ⟨rfl, rfl, rfl⟩ : negative = negative' ∧ field = field' ∧ fraction = fraction' := by
    grind
  obtain ⟨⟨bits, valid⟩⟩ := x
  obtain ⟨⟨bits', valid'⟩⟩ := y
  obtain rfl : bits = bits' := UInt64.toNat_inj.1 (hbits.trans hbits'.symm)
  rfl

/-- Two doubles are not both nearest to a number between them: the lesser would have an even mantissa, so
the next double, whose mantissa is odd, is neither and is nearer. -/
theorem not_lt_of_least {q : ℚ} {m m' : ℕ} {e e' : ℤ} (h : Canonical m e) (he : e ≤ 971)
    (h' : Canonical m' e') (heven : Even m) (heven' : Even m')
    (hdistance : |(m' : ℚ) * 2 ^ e' - q| = |m * 2 ^ e - q|)
    (hleast : ∀ y w, (Binary64.ofFloat y).value? = some w → w ≠ m * 2 ^ e →
      |m * 2 ^ e - q| ≤ |w - q|) : ¬(m : ℚ) * 2 ^ e < m' * 2 ^ e' := by
  intro hlt
  have hunit : (0 : ℚ) < 2 ^ e := zpow_pos two_pos e
  have hfits := h.fits
  have hfits' := h'.fits
  have hnext : Canonical (m + 1) e := by
    obtain ⟨n, hn⟩ := heven
    exact ⟨by omega, h.least, h.full.imp_left fun h => h.trans (Nat.le_succ m)⟩
  obtain ⟨z, hz⟩ := hnext.exists_float he
  have hsum : ((m + 1 : ℕ) : ℚ) * 2 ^ e = m * 2 ^ e + 2 ^ e := by
    push_cast
    ring
  have hstep : (m : ℚ) * 2 ^ e + 2 ^ e ≤ m' * 2 ^ e' := by
    have hseparated := h.separated (by omega : (m' : ℤ) < 2 ^ 53) h'.least
      (by push_cast; exact hlt.ne')
    push_cast at hseparated
    rcases hseparated with h | h | ⟨-, -, h⟩ <;> linarith
  have hother : (m : ℚ) * 2 ^ e + 2 ^ e ≠ m' * 2 ^ e' := by
    intro heq
    obtain ⟨rfl, -⟩ := hnext.inj h' (hsum.trans heq)
    exact (Nat.even_add_one.1 heven') heven
  have hbetween := lt_of_le_of_ne hstep hother
  have hnearer := hleast z _ (Binary64.value?_of_eq hz) (by linarith)
  rw [hsum] at hnearer
  -- The number is in the middle of the two, and the next double is between them.
  rcases abs_eq_abs.1 hdistance with heq | heq
  · linarith
  · have hcloser : |(m : ℚ) * 2 ^ e + 2 ^ e - q| < q - m * 2 ^ e :=
      abs_lt.2 ⟨by linarith, by linarith⟩
    have hfar := neg_le_abs ((m : ℚ) * 2 ^ e - q)
    linarith

/-- The double of a rounding is the nearest one to the number. -/
theorem RoundsTo.isNearest {q : ℚ} {m : ℕ} {e : ℤ} (h : RoundsTo q m e) :
    IsNearest q (packed (unpackedOfParts .positive m e)) := by
  have hparts := ofFloat_packed h.toCanonical
  by_cases he : e ≤ 971
  · rw [if_pos he] at hparts
    exact .finite m e hparts (h.lt_iff.2 he) fun y w hy hne => h.no_nearer hy hne
  · rw [if_neg he] at hparts
    exact .infinite hparts (not_lt.1 fun hlt => he (h.lt_iff.1 hlt))

/-- **A number has one nearest double.** -/
theorem IsNearest.unique {q : ℚ} {x y : Float} (hx : IsNearest q x) (hy : IsNearest q y) : x = y := by
  cases hx with
  | infinite hx hlarge =>
    cases hy with
    | infinite hy => exact eq_of_ofFloat (hx.trans hy.symm) (by rw [hx]; nofun)
    | finite _ _ _ hsmall => exact absurd hsmall (not_lt.2 hlarge)
  | finite m e hx hsmall hleast =>
    cases hy with
    | infinite _ hlarge => exact absurd hsmall (not_lt.2 hlarge)
    | finite m' e' hy _ hleast' =>
      obtain ⟨hm, he⟩ := Canonical.of_ofFloat hx
      obtain ⟨hm', he'⟩ := Canonical.of_ofFloat hy
      by_cases heq : (m : ℚ) * 2 ^ e = m' * 2 ^ e'
      · obtain ⟨rfl, rfl⟩ := hm.inj hm' heq
        exact eq_of_ofFloat (hx.trans hy.symm) (by rw [hx]; nofun)
      · -- Neither is nearer, so both mantissas are even.
        obtain ⟨hnear, heven⟩ := hleast y _ (Binary64.value?_of_eq hy) (Ne.symm heq)
        obtain ⟨hnear', heven'⟩ := hleast' x _ (Binary64.value?_of_eq hx) heq
        have hdistance := le_antisymm hnear' hnear
        have hlow := not_lt_of_least hm he hm' (heven hdistance) (heven' hdistance.symm) hdistance
          fun z w hz hne => (hleast z w hz hne).1
        have hhigh := not_lt_of_least hm' he' hm (heven' hdistance.symm) (heven hdistance)
          hdistance.symm fun z w hz hne => (hleast' z w hz hne).1
        exact absurd (le_antisymm (not_lt.1 hhigh) (not_lt.1 hlow)) heq

end ScriptLang
