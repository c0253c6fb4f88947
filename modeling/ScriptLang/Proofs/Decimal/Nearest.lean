import Mathlib
import ScriptLang.Decimal.Binary64

/-!
# The nearest double

What it means that a double is the nearest one to a number: no other double is nearer, and of two that
are as near it is the one with the even mantissa.

Half of the space between two doubles is all that a rounded mantissa can be off by. Above a power of two
the doubles are twice as far apart as below it, so there the bound below is a quarter.

## Main definitions

* `Binary64.value?`: the number of a finite double
* `IsNearest`: a double is the nearest one
* `Canonical`: a mantissa and an exponent are those of a double
* `RoundsTo`: a number lies around a mantissa and an exponent, as far as they are its rounding

## Main results

* `Canonical.separated`: how far doubles are apart
* `RoundsTo.no_nearer`: no double is nearer than the rounding
-/

namespace ScriptLang

/-- The number of a finite double. -/
def Binary64.value? : Binary64 → Option ℚ
  | .finite negative mantissa exponent =>
    some (((if negative then -1 else 1) * mantissa : ℤ) * 2 ^ exponent)
  | .nan | .infinite _ => none

theorem Binary64.value?_of_eq {x : Float} {mantissa : ℕ} {exponent : ℤ}
    (h : Binary64.ofFloat x = .finite false mantissa exponent) :
    (Binary64.ofFloat x).value? = some ((mantissa : ℚ) * 2 ^ exponent) := by
  simp [h, Binary64.value?]

/-- The double is the nearest one to a number that is not negative: no double is nearer, and if another is
as near, the mantissa is even. From half way between the greatest double and the next power of two on, it
is infinite. -/
inductive IsNearest (q : ℚ) (x : Float) : Prop where
  | finite (mantissa : ℕ) (exponent : ℤ)
      (parts : Binary64.ofFloat x = .finite false mantissa exponent) (small : q < 2 ^ 1024 - 2 ^ 970)
      (least : ∀ y w, (Binary64.ofFloat y).value? = some w → w ≠ mantissa * 2 ^ exponent →
        |mantissa * 2 ^ exponent - q| ≤ |w - q| ∧
          (|w - q| = |mantissa * 2 ^ exponent - q| → Even mantissa))
  | infinite (parts : Binary64.ofFloat x = .infinite false) (large : 2 ^ 1024 - 2 ^ 970 ≤ q)

/-! ### The grid of doubles -/

/-- The parts of a double: a mantissa of 53 bits, all of them used unless the exponent is the least. -/
structure Canonical (mantissa : ℕ) (exponent : ℤ) : Prop where
  fits : mantissa < 2 ^ 53
  least : -1074 ≤ exponent
  full : 2 ^ 52 ≤ mantissa ∨ exponent = -1074

namespace Canonical

variable {m m' : ℕ} {e e' : ℤ}

/-- The parts of every finite double are those of a double. -/
theorem of_ofFloat {x : Float} {negative : Bool} (h : Binary64.ofFloat x = .finite negative m e) :
    Canonical m e ∧ e ≤ 971 := by
  rw [Binary64.ofFloat] at h
  rw [Binary64.leadingBit, Binary64.greatestField, Binary64.leastExponent] at h
  split at h
  · split at h <;> cases h
  split at h
  · cases h
    exact ⟨⟨by omega, le_rfl, Or.inr rfl⟩, by omega⟩
  · cases h
    exact ⟨⟨by omega, by omega, Or.inl (by omega)⟩, by omega⟩

/-- A number of the grid of an exponent is a whole number of units. -/
theorem exists_unit {z : ℤ} (h : e ≤ e') : ∃ n : ℤ, (z : ℚ) * 2 ^ e' = n * 2 ^ e := by
  obtain ⟨k, rfl⟩ : ∃ k : ℕ, e' = e + k := ⟨(e' - e).toNat, by omega⟩
  refine ⟨z * 2 ^ k, ?_⟩
  rw [zpow_add₀ two_ne_zero, zpow_natCast]
  push_cast
  ring

/-- A number with a lesser exponent than a double, and no longer a mantissa, lies more than half a unit
below the least full mantissa. -/
theorem below_of_lt {z : ℤ} (hz : z < 2 ^ 53) (h : e' < e) :
    (z : ℚ) * 2 ^ e' ≤ 2 ^ 52 * 2 ^ e - 2 ^ e / 2 := by
  have hunit : (0 : ℚ) < 2 ^ e' := zpow_pos two_pos e'
  have hhalf : (2 : ℚ) ^ (e - 1) = 2 ^ e / 2 := zpow_sub_one₀ two_ne_zero e
  have hle : (2 : ℚ) ^ e' ≤ 2 ^ (e - 1) := zpow_le_zpow_right₀ one_le_two (by omega)
  have hmantissa : (z : ℚ) ≤ 2 ^ 53 - 1 := by
    have : z ≤ 2 ^ 53 - 1 := by omega
    exact_mod_cast this
  calc (z : ℚ) * 2 ^ e' ≤ (2 ^ 53 - 1) * 2 ^ e' := by gcongr
    _ ≤ (2 ^ 53 - 1) * 2 ^ (e - 1) := by gcongr
    _ = 2 ^ 52 * 2 ^ e - 2 ^ e / 2 := by rw [hhalf]; ring

/-- **Doubles keep their distance.** Another double is at least a unit away, and only below a power of two
half a unit. -/
theorem separated (h : Canonical m e) {z : ℤ} (hz : z < 2 ^ 53) (he' : -1074 ≤ e')
    (hne : (z : ℚ) * 2 ^ e' ≠ m * 2 ^ e) :
    (m : ℚ) * 2 ^ e + 2 ^ e ≤ z * 2 ^ e' ∨ (z : ℚ) * 2 ^ e' ≤ m * 2 ^ e - 2 ^ e ∨
      m = 2 ^ 52 ∧ -1074 < e ∧ (z : ℚ) * 2 ^ e' ≤ m * 2 ^ e - 2 ^ e / 2 := by
  have hunit : (0 : ℚ) < 2 ^ e := zpow_pos two_pos e
  rcases le_or_gt e e' with hle | hlt
  · -- On one grid they are whole units apart.
    obtain ⟨n, hn⟩ := exists_unit (z := z) hle
    rw [hn] at hne ⊢
    have hother : n ≠ m := by
      rintro rfl
      exact hne (by push_cast; rfl)
    rcases lt_or_gt_of_ne hother with hlow | hhigh
    · right; left
      have : (n : ℚ) ≤ m - 1 := by exact_mod_cast Int.le_sub_one_of_lt hlow
      nlinarith
    · left
      have : (m : ℚ) + 1 ≤ n := by exact_mod_cast hhigh
      nlinarith
  · have hfull : 2 ^ 52 ≤ m := h.full.resolve_right (by omega)
    have hbelow := below_of_lt hz hlt
    right
    rcases hfull.eq_or_lt with heq | hmore
    · right
      refine ⟨heq.symm, by omega, hbelow.trans_eq ?_⟩
      rw [← heq]
      push_cast
      ring
    · left
      have : (2 : ℚ) ^ 52 + 1 ≤ m := by exact_mod_cast hmore
      nlinarith

/-- Doubles with the same number have the same parts. -/
theorem inj (h : Canonical m e) (h' : Canonical m' e') (heq : (m : ℚ) * 2 ^ e = m' * 2 ^ e') :
    m = m' ∧ e = e' := by
  have hnot {m m' : ℕ} {e e' : ℤ} (h : Canonical m e) (h' : Canonical m' e')
      (heq : (m : ℚ) * 2 ^ e = m' * 2 ^ e') : ¬e < e' := by
    intro hlt
    have hunit : (0 : ℚ) < 2 ^ e' := zpow_pos two_pos e'
    have hfits := h.fits
    have hbelow := below_of_lt (z := m) (by omega) hlt
    have hfull : (2 : ℚ) ^ 52 ≤ m' := by
      exact_mod_cast h'.full.resolve_right (by have := h.least; omega)
    have := mul_le_mul_of_nonneg_right hfull hunit.le
    push_cast at hbelow
    linarith
  obtain rfl : e = e' := le_antisymm (not_lt.1 (hnot h' h heq.symm)) (not_lt.1 (hnot h h' heq))
  refine ⟨?_, rfl⟩
  exact_mod_cast mul_right_cancel₀ (zpow_ne_zero e two_ne_zero) heq

end Canonical

/-! ### Roundings -/

/-- A number lies around the double with the given parts: at most half a unit away, if as much the mantissa
is even, and no more than a quarter below a power of two. -/
structure RoundsTo (q : ℚ) (mantissa : ℕ) (exponent : ℤ) : Prop extends
    Canonical mantissa exponent where
  near : |mantissa * 2 ^ exponent - q| ≤ 2 ^ exponent / 2
  even : |mantissa * 2 ^ exponent - q| = 2 ^ exponent / 2 → Even mantissa
  bottom : mantissa = 2 ^ 52 → -1074 < exponent → mantissa * 2 ^ exponent - 2 ^ exponent / 4 ≤ q

namespace RoundsTo

variable {q : ℚ} {m : ℕ} {e : ℤ}

/-- **No double is nearer than the rounding**, and if one is as near, the mantissa is even. -/
theorem no_nearer (h : RoundsTo q m e) {y : Float} {w : ℚ}
    (hy : (Binary64.ofFloat y).value? = some w) (hne : w ≠ m * 2 ^ e) :
    |m * 2 ^ e - q| ≤ |w - q| ∧ (|w - q| = |m * 2 ^ e - q| → Even m) := by
  obtain ⟨negative, m', e', hparts⟩ : ∃ negative m' e',
      Binary64.ofFloat y = .finite negative m' e' := by
    cases hparts : Binary64.ofFloat y with
    | finite negative m' e' => exact ⟨_, _, _, rfl⟩
    | nan | infinite =>
      rw [hparts] at hy
      cases hy
  rw [hparts, Binary64.value?, Option.some_inj] at hy
  obtain ⟨⟨hfits', hleast', -⟩, -⟩ := Canonical.of_ofFloat hparts
  have hz : (if negative then -1 else 1) * (m' : ℤ) < 2 ^ 53 := by
    split <;> omega
  have hnear := abs_le.1 h.near
  have hunit : (0 : ℚ) < 2 ^ e := zpow_pos two_pos e
  have hseparated := h.toCanonical.separated hz hleast' (hy ▸ hne)
  rw [hy] at hseparated
  rcases hseparated with habove | hbelow | ⟨hpower, hnormal, hbelow⟩
  · -- The number is at most half a unit from its rounding, and the other double at least a unit.
    have hfar : 2 ^ e / 2 ≤ |w - q| := le_abs.2 (Or.inl (by linarith [hnear.1]))
    exact ⟨h.near.trans hfar, fun heq => h.even (le_antisymm h.near (heq ▸ hfar))⟩
  · have hfar : 2 ^ e / 2 ≤ |w - q| := le_abs.2 (Or.inr (by linarith [hnear.2]))
    exact ⟨h.near.trans hfar, fun heq => h.even (le_antisymm h.near (heq ▸ hfar))⟩
  · have hbottom := h.bottom hpower hnormal
    refine ⟨le_abs.2 (Or.inr ?_), fun _ => hpower ▸ by decide⟩
    -- The number is above the middle between the two.
    rw [abs_le]
    constructor <;> linarith

/-- A number that is too large has no rounding among the finite doubles. -/
theorem lt_iff (h : RoundsTo q m e) : q < 2 ^ 1024 - 2 ^ 970 ↔ e ≤ 971 := by
  obtain ⟨hlow, hhigh⟩ := abs_le.1 h.near
  -- Everything is compared in halves of the unit of the greatest exponent.
  obtain ⟨u, hpos, hbound, hgreatest, hbeyond⟩ : ∃ u : ℚ, 0 < u ∧
      (2 : ℚ) ^ 1024 - 2 ^ 970 = (2 ^ 54 - 1) * u ∧ (2 : ℚ) ^ (971 : ℤ) = 2 * u ∧
      (2 : ℚ) ^ (972 : ℤ) = 4 * u := by
    refine ⟨2 ^ (970 : ℤ), zpow_pos two_pos _, ?_, ?_, ?_⟩
    · rw [sub_mul, one_mul, ← zpow_natCast 2 54, ← zpow_add₀ two_ne_zero]
      rfl
    · rw [mul_comm, ← zpow_add_one₀ two_ne_zero]
      rfl
    · rw [(by norm_num : (4 : ℚ) = 2 ^ (2 : ℤ)), ← zpow_add₀ two_ne_zero]
      rfl
  rw [hbound]
  clear hbound
  constructor
  · intro hsmall
    by_contra he
    -- Even the least double with such an exponent is a quarter of a unit above the bound, and the number
    -- is no further below that double.
    have hunit : 4 * u ≤ 2 ^ e := hbeyond ▸ zpow_le_zpow_right₀ one_le_two (by omega)
    clear hgreatest hbeyond
    rcases (h.full.resolve_right (by omega)).eq_or_lt with hpower | hmore
    · have hbottom := h.bottom hpower.symm (by omega)
      rw [← hpower] at hbottom
      push_cast at hbottom
      linarith
    · have hmantissa : (2 : ℚ) ^ 52 + 1 ≤ m := by exact_mod_cast hmore
      have := mul_le_mul_of_nonneg_right hmantissa (zpow_pos two_pos e : (0 : ℚ) < 2 ^ e).le
      linarith
  · intro he
    have hunit : (2 : ℚ) ^ e ≤ 2 * u := hgreatest ▸ zpow_le_zpow_right₀ one_le_two he
    clear hgreatest hbeyond
    have hzero : (0 : ℚ) < 2 ^ e := zpow_pos two_pos e
    by_cases hodd : m = 2 ^ 53 - 1
    · -- The greatest mantissa is odd, so the number is not half a unit above it.
      have hlt : |(m : ℚ) * 2 ^ e - q| < 2 ^ e / 2 :=
        lt_of_le_of_ne h.near fun heq => absurd (h.even heq) (by rw [hodd]; decide)
      have hmantissa : (m : ℚ) = 2 ^ 53 - 1 := by
        rw [hodd]
        norm_num
      have := (abs_lt.1 hlt).1
      rw [hmantissa] at this
      linarith
    · have hfits := h.fits
      have hmantissa : (m : ℚ) + 2 ≤ 2 ^ 53 := by exact_mod_cast (by omega : m + 2 ≤ 2 ^ 53)
      have := mul_le_mul_of_nonneg_right hmantissa hzero.le
      linarith

end RoundsTo

end ScriptLang
