import Mathlib
import ScriptLang.Proofs.Decimal.Rounding
import ScriptLang.Value.Operator

/-!
# The double of an integer

An integer of at most 53 bits has a double of its own. A longer one loses its last bits, and what is
left of it is not below the power of two at its head. So the double of an integer is zero for zero
alone, and the double of a short integer is that of no other.

Subnormal doubles are left out: no integer becomes one.

## Main definitions

* `NormalDouble`: a double whose mantissa is full
* `NormalDouble.Approximates`: such a double stands for an integer, rounded if it is long
* `signOfInt`: the sign of an integer

## Main results

* `NormalDouble.exists_rounded`: the rounding of a long mantissa
* `NormalDouble.unpack_pack`: packed into bits, a normal double is read back
* `exists_floatOfInt64`: the double of an integer other than zero
* `floatOfInt64_inj`: which integers share their double
-/

namespace ScriptLang

open Float.Model Float.Model.UnpackedFloat

/-- A double `± mantissa · 2 ^ exponent` whose mantissa takes up all of its 53 bits. -/
structure NormalDouble where
  sign : UnpackedFloat.Sign
  mantissa : Nat
  exponent : Int
  full : 2 ^ 52 ≤ mantissa
  fits : mantissa < 2 ^ 53

namespace NormalDouble

/-- A normal double among all unpacked ones. -/
def unpacked (d : NormalDouble) : UnpackedFloat :=
  .finite d.sign d.mantissa d.exponent (lt_of_lt_of_le (by decide) d.full)

/-- The exponents for which there are normal doubles. -/
def InRange (d : NormalDouble) : Prop := -1074 ≤ d.exponent ∧ d.exponent ≤ 971

theorem log2_mantissa (d : NormalDouble) : d.mantissa.log2 = 52 :=
  (Nat.log2_eq_iff (Nat.ne_of_gt (lt_of_lt_of_le (by decide) d.full))).2 ⟨d.full, d.fits⟩

/-! ### Rounding -/

theorem unpacked_eq (d : NormalDouble) : d.unpacked = unpackedOfParts d.sign d.mantissa d.exponent := by
  have hne : d.mantissa ≠ 0 := Nat.ne_of_gt (lt_of_lt_of_le (by decide) d.full)
  rw [unpackedOfParts, dif_neg hne, unpacked]

/-- **The rounding of a long mantissa.** The double is normal, and its exponent grows by the bits that
are cut off, or by one more. If these bits are zeros, nothing is lost. -/
theorem exists_rounded {m k : Nat} {e : Int} (sign : UnpackedFloat.Sign) (hlog : m.log2 = 52 + k)
    (he : -1074 ≤ e + k) :
    ∃ d : NormalDouble, roundWithAccuracy .binary64 sign m e .exact = d.unpacked ∧ d.sign = sign ∧
      e + k ≤ d.exponent ∧ d.exponent ≤ e + k + 1 ∧
      ∀ q, m = q * 2 ^ k → d.mantissa = q ∧ d.exponent = e + k := by
  obtain ⟨r, hr⟩ : ∃ r, ((⟨m, false, false⟩ : ExtendedMantissa) >>> k).roundedMantissa = r := ⟨_, rfl⟩
  have hk : m.log2 - 52 = k := by omega
  have hbits : HasAllBits m e := Or.inl (by omega)
  have hzeros (q : Nat) (hq : m = q * 2 ^ k) : r = q := by
    rw [← hr, hq, shiftRight_zeros]
    rfl
  obtain ⟨hlong, -, hround⟩ := roundWithAccuracy_eq hk hbits he sign .exact hr
  have hfull : 2 ^ 52 ≤ r := by
    have hne : m ≠ 0 := by
      rintro rfl
      rw [Nat.log2_zero] at hlog
      omega
    have hbounds := roundedMantissa_bounds ((⟨m, false, false⟩ : ExtendedMantissa) >>> k)
    rw [mantissa_shiftRight, hr] at hbounds
    refine le_trans ?_ hbounds.1
    rw [Nat.le_div_iff_mul_le (Nat.two_pow_pos k), ← Nat.pow_add, ← hlog]
    exact Nat.log2_self_le hne
  by_cases hfits : r < 2 ^ 53
  · refine ⟨⟨sign, r, e + k, hfull, hfits⟩, ?_, rfl, le_rfl, Int.le_add_one le_rfl, fun q hq => ?_⟩
    · rw [hround, if_pos hfits, unpacked_eq]
    · exact ⟨hzeros q hq, rfl⟩
  · refine ⟨⟨sign, 2 ^ 52, e + k + 1, le_rfl, by decide⟩, ?_, rfl, Int.le_add_one le_rfl, le_rfl,
      fun q hq => ?_⟩
    · rw [hround, if_neg hfits, unpacked_eq]
    · -- Without a remainder the mantissa is not rounded up.
      have hshort : m < 2 ^ (52 + k + 1) := by
        rw [← hlog]
        exact Nat.lt_log2_self
      have hq' : q < 2 ^ 53 := by
        rw [hq, (by omega : 52 + k + 1 = 53 + k), Nat.pow_add] at hshort
        exact Nat.lt_of_mul_lt_mul_right hshort
      have := hzeros q hq
      omega

/-! ### Packing -/

@[simp] theorem unpackSign_packComponents {spec : Format} {sign : UnpackedFloat.Sign}
    {exponent : BitVec spec.exponentBits} {mantissa : BitVec spec.mantissaBitsWithoutImplicit} :
    unpackSign (packComponents spec sign exponent mantissa) = sign.toBitVec := by
  ext i hi
  obtain rfl : i = 0 := by omega
  simp [unpackSign, packComponents, BitVec.getLsbD_append, BitVec.getElem_append]

@[simp] theorem ofBitVec_toBitVec (sign : UnpackedFloat.Sign) :
    UnpackedFloat.Sign.ofBitVec sign.toBitVec = sign := by
  cases sign <;> rfl

/-- Packed into bits, a normal double is read back. -/
theorem unpack_pack (d : NormalDouble) (h : d.InRange) :
    (pack d.unpacked).unpack = d.unpacked := by
  obtain ⟨hlow, hhigh⟩ := h
  have hfull := d.full
  have hfits := d.fits
  obtain ⟨field, hfield⟩ : ∃ field : Nat, d.exponent = field - 1075 :=
    ⟨(d.exponent + 1075).toNat, by omega⟩
  have hpacked : UnpackedFloat.pack .binary64 d.unpacked =
      packComponents .binary64 d.sign (BitVec.ofNat 11 field) (BitVec.ofNat 52 d.mantissa) := by
    have hbiased : (d.exponent + Format.binary64.exponentBias + (52 : Nat)).toNat = field := by
      simp only [Format.exponentBias]
      omega
    have hfinite : ¬ 2 ^ 11 ≤ field + 1 := by omega
    simp only [UnpackedFloat.pack, unpacked, hbiased, hfinite, if_false, d.log2_mantissa,
      Format.mantissaBits]
    rfl
  have hexponent : (BitVec.ofNat 11 field).toNat = field := by
    rw [BitVec.toNat_ofNat, Nat.mod_eq_of_lt (by omega)]
  -- The leading bit is not written down, and is put back in front of the others.
  have hmantissa : (1#1 ++ BitVec.ofNat 52 d.mantissa).toNat = d.mantissa := by
    have hlead : (1#1).toNat = 1 := rfl
    have hrest : (BitVec.ofNat 52 d.mantissa).toNat = d.mantissa % 2 ^ 52 := BitVec.toNat_ofNat _ _
    rw [BitVec.toNat_append, ← Nat.shiftLeft_add_eq_or_of_lt (BitVec.isLt _), Nat.shiftLeft_eq, hlead,
      hrest]
    omega
  have hnonzero : BitVec.ofNat 11 field ≠ 0#11 := by
    intro heq
    rw [heq] at hexponent
    simp at hexponent
    omega
  have hfinite : BitVec.ofNat 11 field ≠ -1#11 := by
    intro heq
    rw [heq] at hexponent
    simp at hexponent
    omega
  rw [Float.Model.unpack]
  simp only [Float.Model.pack, hpacked, UnpackedFloat.unpack, unpackExponent_packComponents,
    unpackMantissa_packComponents, unpackSign_packComponents, ofBitVec_toBitVec, hfinite, hnonzero,
    if_false]
  unfold unpacked
  congr 1
  rw [hexponent]
  simp only [Format.exponentBias]
  omega

/-- The normal double with the other sign. -/
def neg (d : NormalDouble) : NormalDouble := { d with sign := -d.sign }

theorem unpacked_injective : Function.Injective unpacked := by
  rintro ⟨sign, mantissa, exponent, full, fits⟩ ⟨sign', mantissa', exponent', full', fits'⟩ h
  injection h with hsign hmantissa hexponent
  simp only [mk.injEq]
  exact ⟨hsign, hmantissa, hexponent⟩

end NormalDouble

/-! ### Integers -/

theorem log2_mul_two_pow {n : Nat} (h : n ≠ 0) (k : Nat) : (n * 2 ^ k).log2 = n.log2 + k := by
  have hpos : 0 < n * 2 ^ k := Nat.mul_pos (Nat.pos_of_ne_zero h) (Nat.two_pow_pos k)
  obtain ⟨hlow, hhigh⟩ := (Nat.log2_eq_iff h).1 rfl
  rw [Nat.log2_eq_iff hpos.ne']
  constructor
  · rw [Nat.pow_add]
    exact Nat.mul_le_mul_right _ hlow
  · have hswap : n.log2 + k + 1 = n.log2 + 1 + k := by omega
    rw [hswap, Nat.pow_add]
    exact Nat.mul_lt_mul_of_pos_right hhigh (Nat.two_pow_pos k)

/-- A short number is moved up to a full mantissa, and is then exact. -/
theorem exists_round_short {n : Nat} (hpos : n ≠ 0) (hlog : n.log2 ≤ 52) :
    ∃ d : NormalDouble, UnpackedFloat.round .binary64 .positive n 0 = d.unpacked ∧ d.sign = .positive ∧
      d.mantissa = n * 2 ^ (52 - n.log2) ∧ d.exponent = (n.log2 : Int) - 52 := by
  have hlogm : (n * 2 ^ (52 - n.log2)).log2 = 52 + 0 := by
    rw [log2_mul_two_pow hpos]
    omega
  have htarget : Format.binary64.targetExponent (totalExponent n 0) = (n.log2 : Int) - 52 := by
    simp only [Format.targetExponent, totalExponent, Format.mantissaBits, Format.minExponent]
    omega
  have hshift : (0 - ((n.log2 : Int) - 52)).toNat = 52 - n.log2 := by omega
  have hexponent : 0 - ((52 - n.log2 : Nat) : Int) = (n.log2 : Int) - 52 := by omega
  obtain ⟨d, hround, hsign, -, -, hexact⟩ :=
    NormalDouble.exists_rounded (e := (n.log2 : Int) - 52) .positive hlogm (by omega)
  obtain ⟨hmantissa, hd⟩ := hexact _ (Nat.mul_one _).symm
  refine ⟨d, ?_, hsign, hmantissa, ?_⟩
  · rw [UnpackedFloat.round, htarget, decreaseExponent, hshift, Nat.shiftLeft_eq, hexponent]
    exact hround
  · rw [hd]
    omega

/-- What is known of the double of a number: it is not below the power of two at the head of the
number, and it is the number itself if that is short. -/
structure NormalDouble.Approximates (d : NormalDouble) (n : Nat) : Prop where
  least : (n.log2 : Int) - 52 ≤ d.exponent
  greatest : d.exponent ≤ (n.log2 : Int) - 51
  exact : n.log2 ≤ 52 → d.mantissa = n * 2 ^ (52 - n.log2) ∧ d.exponent = (n.log2 : Int) - 52

theorem NormalDouble.Approximates.inRange {d : NormalDouble} {n : Nat} (h : d.Approximates n)
    (hlog : n.log2 ≤ 63) : d.InRange := by
  have hleast := h.least
  have hgreatest := h.greatest
  exact ⟨by omega, by omega⟩

/-- A number of at most 53 bits is a double. -/
theorem exists_toFloat {n : Nat} (hpos : n ≠ 0) (hlog : n.log2 ≤ 52) :
    ∃ d : NormalDouble, (UInt64.ofNat n).toFloat.toModel.unpack = d.unpacked ∧ d.sign = .positive ∧
      d.mantissa = n * 2 ^ (52 - n.log2) ∧ d.exponent = (n.log2 : Int) - 52 := by
  have hshort : n < 2 ^ 53 := (Nat.log2_lt hpos).1 (by omega)
  obtain ⟨d, hround, hsign, hmantissa, hexponent⟩ := exists_round_short hpos hlog
  have hrange : d.InRange := ⟨by omega, by omega⟩
  have hcast : ((UInt64.ofNat n).toNat : Int) = n := by
    rw [UInt64.toNat_ofNat']
    omega
  have hgt : compare (n : Int) 0 = .gt := by
    rw [compare_gt_iff_gt]
    omega
  refine ⟨d, ?_, hsign, hmantissa, hexponent⟩
  rw [UInt64.toFloat, Float.Model.ofUInt64, UnpackedFloat.ofUInt64, UnpackedFloat.ofNat,
    UnpackedFloat.ofInt, UnpackedFloat.normalize, hcast, hgt]
  exact (congrArg (fun u => (pack u).unpack) hround).trans (d.unpack_pack hrange)

theorem exists_ofNat_short {n : Nat} (hpos : n ≠ 0) (hlog : n.log2 ≤ 52) :
    ∃ d : NormalDouble, (Float.ofNat n).toModel.unpack = d.unpacked ∧ d.sign = .positive ∧
      d.Approximates n := by
  have hshort : n < 2 ^ 53 := (Nat.log2_lt hpos).1 (by omega)
  -- The number is a double, and is then multiplied by one, which changes nothing.
  obtain ⟨d, hfactor, hsign, hmantissa, hexponent⟩ := exists_toFloat hpos hlog
  have hone : (Float.exactlyRepresentablePowersOfTen[0]).toModel.unpack =
      .finite .positive (2 ^ 52) (-52) (by decide) := rfl
  have hlogm : (d.mantissa * 2 ^ 52).log2 = 52 + 52 := by
    rw [log2_mul_two_pow (by have := d.full; omega), d.log2_mantissa]
  obtain ⟨p, hproduct, hp, -, -, hexact⟩ :=
    NormalDouble.exists_rounded (e := d.exponent + -52) .positive hlogm (by omega)
  obtain ⟨hpm, hpe⟩ := hexact _ rfl
  have hsame : p.exponent = (n.log2 : Int) - 52 := by omega
  refine ⟨p, ?_, hp, hsame.ge, by omega, fun _ => ⟨hpm.trans hmantissa, hsame⟩⟩
  have hdef : Float.ofNat n = (UInt64.ofNat n).toFloat * Float.exactlyRepresentablePowersOfTen[0] := by
    have hofNat : Float.ofNat n = Float.ofScientific n false 0 := rfl
    rw [hofNat, Float.ofScientific, dif_pos ⟨hshort, by decide⟩]
    rfl
  calc (Float.ofNat n).toModel.unpack
      = (pack (mul .binary64 (UInt64.ofNat n).toFloat.toModel.unpack
          Float.exactlyRepresentablePowersOfTen[0].toModel.unpack)).unpack := by rw [hdef]; rfl
    _ = (pack (roundWithAccuracy .binary64 .positive (d.mantissa * 2 ^ 52) (d.exponent + -52)
          .exact)).unpack := by
        rw [hfactor, hone, NormalDouble.unpacked, UnpackedFloat.mul, hsign]
        rfl
    _ = p.unpacked := by rw [hproduct, p.unpack_pack ⟨by omega, by omega⟩]

theorem exists_ofNat_long {n : Nat} (hlog : 52 < n.log2) (hrange : n.log2 ≤ 63) :
    ∃ d : NormalDouble, (Float.ofNat n).toModel.unpack = d.unpacked ∧ d.sign = .positive ∧
      d.Approximates n := by
  have hpos : n ≠ 0 := by
    rintro rfl
    simp at hlog
  have hlong : ¬ n < 2 ^ 53 := by
    rw [← Nat.log2_lt hpos]
    omega
  have hlogm : (n * 2 ^ 53 * 1).log2 = 52 + (n.log2 + 1) := by
    rw [Nat.mul_one, log2_mul_two_pow hpos]
    omega
  obtain ⟨d, hround, hsign, hleast, hgreatest, -⟩ :=
    NormalDouble.exists_rounded (e := -53 + 0) .positive hlogm (by omega)
  refine ⟨d, ?_, hsign, by omega, by omega, fun hshort => absurd hshort (by omega)⟩
  have hdef : Float.ofNat n = Float.ofModel (Float.Model.ofScientific n 0) := by
    have hofNat : Float.ofNat n = Float.ofScientific n false 0 := rfl
    rw [hofNat, Float.ofScientific, dif_neg fun h => hlong h.1]
    rfl
  have hproduct : UnpackedFloat.ofScientific .binary64 n 0 =
      roundWithAccuracy .binary64 .positive (n * 2 ^ 53 * 1) (-53 + 0) .exact := by
    have hmoderate : ¬ (0 : Int) < -((2 ^ 11 : Int) + n.log2) := by omega
    rw [UnpackedFloat.ofScientific, dif_neg hpos, if_neg (by decide), if_neg hmoderate,
      if_pos le_rfl, UnpackedFloat.mul, Nat.shiftLeft_eq]
    rfl
  rw [hdef, Float.Model.ofScientific, hproduct, hround, d.unpack_pack ⟨by omega, by omega⟩]

/-- The sign of an integer other than zero. -/
def signOfInt (n : Int) : UnpackedFloat.Sign := if n < 0 then .negative else .positive

theorem natAbs_eq_of_signOfInt {m n : Int} (hsign : signOfInt m = signOfInt n)
    (habs : m.natAbs = n.natAbs) : m = n := by
  unfold signOfInt at hsign
  split at hsign <;> split at hsign
  · omega
  · cases hsign
  · cases hsign
  · omega

/-- **The double of an integer other than zero.** It has the sign of the integer and approximates its
magnitude. -/
theorem exists_floatOfInt64 {n : Int64} (h : n.toInt ≠ 0) :
    ∃ d : NormalDouble, (floatOfInt64 n).toModel.unpack = d.unpacked ∧ d.sign = signOfInt n.toInt ∧
      d.Approximates n.toInt.natAbs := by
  have hpos : n.toInt.natAbs ≠ 0 := by omega
  have hlog : n.toInt.natAbs.log2 ≤ 63 := by
    have hlow : -9223372036854775808 ≤ n.toInt := n.le_toInt
    have hhigh : n.toInt < 9223372036854775808 := n.toInt_lt
    have hlt : n.toInt.natAbs.log2 < 64 := (Nat.log2_lt hpos).2 (by omega)
    omega
  obtain ⟨d, hd, hsign, happrox⟩ : ∃ d : NormalDouble,
      (Float.ofNat n.toInt.natAbs).toModel.unpack = d.unpacked ∧ d.sign = .positive ∧
      d.Approximates n.toInt.natAbs := by
    by_cases hshort : n.toInt.natAbs.log2 ≤ 52
    · exact exists_ofNat_short hpos hshort
    · exact exists_ofNat_long (Nat.lt_of_not_le hshort) hlog
  by_cases hneg : n.toInt < 0
  · have hdef : floatOfInt64 n = -Float.ofNat n.toInt.natAbs := by
      obtain ⟨m, hm⟩ := Int.eq_negSucc_of_lt_zero hneg
      rw [floatOfInt64, hm]
      rfl
    have hnegated : (floatOfInt64 n).toModel.unpack = (pack d.neg.unpacked).unpack := by
      rw [hdef]
      exact congrArg (fun u => (pack u.neg).unpack) hd
    refine ⟨d.neg, hnegated.trans (d.neg.unpack_pack (happrox.inRange hlog)), ?_, ?_⟩
    · rw [signOfInt, if_pos hneg, NormalDouble.neg, hsign]
      rfl
    · exact ⟨happrox.least, happrox.greatest, happrox.exact⟩
  · have hdef : floatOfInt64 n = Float.ofNat n.toInt.natAbs := by
      obtain ⟨m, hm⟩ := Int.eq_ofNat_of_zero_le (Int.not_lt.1 hneg)
      rw [floatOfInt64, hm]
      rfl
    exact ⟨d, hdef ▸ hd, by rw [hsign, signOfInt, if_neg hneg], happrox⟩

@[simp] theorem unpack_floatOfInt64_zero : (floatOfInt64 0).toModel.unpack = .zero .positive := rfl

/-- The double of an integer is zero for zero alone. -/
theorem unpack_floatOfInt64_eq_zero {n : Int64} {sign : UnpackedFloat.Sign}
    (h : (floatOfInt64 n).toModel.unpack = .zero sign) : n = 0 := by
  by_contra hne
  have hpos : n.toInt ≠ 0 := fun hzero => hne (Int64.toInt_inj.1 hzero)
  obtain ⟨d, hd, -, -⟩ := exists_floatOfInt64 hpos
  rw [hd] at h
  cases h

/-- Integers that share their double are the same, or both are long. -/
theorem floatOfInt64_inj {a b : Int64} (h : a.toInt.natAbs < 2 ^ 53)
    (heq : (floatOfInt64 a).toModel.unpack = (floatOfInt64 b).toModel.unpack) : a = b := by
  by_cases ha : a.toInt = 0
  · obtain rfl : a = 0 := Int64.toInt_inj.1 ha
    exact (unpack_floatOfInt64_eq_zero heq.symm).symm
  by_cases hb : b.toInt = 0
  · obtain rfl : b = 0 := Int64.toInt_inj.1 hb
    exact unpack_floatOfInt64_eq_zero heq
  obtain ⟨d, hd, hsign, happrox⟩ := exists_floatOfInt64 ha
  obtain ⟨d', hd', hsign', happrox'⟩ := exists_floatOfInt64 hb
  obtain rfl : d = d' := NormalDouble.unpacked_injective (hd.symm.trans (heq.trans hd'))
  have hshort : a.toInt.natAbs.log2 ≤ 52 := by
    have := (Nat.log2_lt (n := a.toInt.natAbs) (k := 53) (by omega)).2 h
    omega
  obtain ⟨hmantissa, hexponent⟩ := happrox.exact hshort
  have hleast' := happrox'.least
  obtain ⟨hmantissa', hexponent'⟩ := happrox'.exact (by omega)
  -- The doubles have one exponent, so the integers are equally long and equally far moved up.
  have hlog : a.toInt.natAbs.log2 = b.toInt.natAbs.log2 := by omega
  have habs : a.toInt.natAbs = b.toInt.natAbs := by
    rw [hmantissa, hlog] at hmantissa'
    exact Nat.eq_of_mul_eq_mul_right (Nat.two_pow_pos _) hmantissa'
  exact Int64.toInt_inj.1 (natAbs_eq_of_signOfInt (hsign.symm.trans hsign') habs)

end ScriptLang
