import ScriptLang.Proofs.Value.Equality

/-!
# Integer arithmetic

An operator on two integers gives back the exact integer, or reports that 64 bits do not hold it. It
never wraps. A remainder has the sign of the dividend; a quotient is never an integer.

## Main definitions

* `Fits`: the integers that 64 bits hold
* `Value.Exact`: a result that is a given integer, or the report that it does not fit
* `Value.Remainder`, `Value.Quotient`: what the divisions give back
* `Value.OperatorsExact`: what each operator makes of two integers

## Main results

* `Value.operatorsExact`: the operators are exact
* `Value.exists_of_binary?_int`, `Value.exists_of_negate?_int`: they make integers of integers only
-/

namespace ScriptLang

/-- The integers that 64 bits hold. -/
def Fits (z : Int) : Prop := -2 ^ 63 ≤ z ∧ z < 2 ^ 63

theorem fits_toInt (n : Int64) : Fits n.toInt := ⟨n.le_toInt, n.toInt_lt⟩

theorem int64OfInt?_eq_none_iff_not_fits {z : Int} : int64OfInt? z = none ↔ ¬ Fits z := by
  have hmin : Int64.minValue.toInt = -9223372036854775808 := Int64.toInt_minValue
  have hmax : Int64.maxValue.toInt = 9223372036854775807 := Int64.toInt_maxValue
  rw [int64OfInt?_eq_none_iff, hmin, hmax, Fits]
  omega

namespace Value

/-- The result is the integer, or the report that 64 bits do not hold it. -/
inductive Exact (z : Int) : Except Fault Value → Prop
  | value {n : Int64} : n.toInt = z → Exact z (.ok (int n))
  | overflow {fault : Fault} : ¬ Fits z → fault.kind = .overflow → Exact z (.error fault)

theorem ofInt?_exact {fault : Fault} (h : fault.kind = .overflow) (z : Int) :
    Exact z (ofInt? fault z) := by
  rw [ofInt?]
  split
  · next n hn => exact .value (int64OfInt?_eq_some_iff.1 hn)
  · next hnone => exact .overflow (int64OfInt?_eq_none_iff_not_fits.1 hnone) h

/-- The result of a remainder: a fault for a divisor of zero and for the one quotient that does not fit,
and what is left of the dividend otherwise. -/
inductive Remainder (a b : Int) : Except Fault Value → Prop
  | zeroDivision {fault : Fault} : b = 0 → fault.kind = .zeroDivision → Remainder a b (.error fault)
  | overflow {fault : Fault} : a = -2 ^ 63 → b = -1 → fault.kind = .overflow →
    Remainder a b (.error fault)
  | value {r : Int64} (q : Int) : b ≠ 0 → ¬ (a = -2 ^ 63 ∧ b = -1) → a = q * b + r.toInt →
    r.toInt.natAbs < b.natAbs → (r.toInt = 0 ∨ r.toInt.sign = a.sign) → Remainder a b (.ok (int r))

/-- The result of a quotient. -/
inductive Quotient (b : Int) : Except Fault Value → Prop
  | zeroDivision {fault : Fault} : b = 0 → fault.kind = .zeroDivision → Quotient b (.error fault)
  | value {x : Float} : b ≠ 0 → Quotient b (.ok (float x))

/-- The least integer is the one dividend with a quotient that does not fit. -/
theorem fits_tdiv_iff {a b : Int} (ha : Fits a) (hb : b ≠ 0) :
    Fits (a.tdiv b) ↔ ¬ (a = -2 ^ 63 ∧ b = -1) := by
  obtain ⟨hlow, hhigh⟩ := ha
  by_cases hminus : b = -1
  · have hq : a.tdiv b = -a := by rw [hminus, Int.tdiv_neg, Int.tdiv_one]
    rw [hq, Fits]
    omega
  by_cases hone : b = 1
  · have hq : a.tdiv b = a := by rw [hone, Int.tdiv_one]
    rw [hq, Fits]
    omega
  -- Any other divisor halves the dividend at least.
  have hhalf : (a.tdiv b).natAbs ≤ a.natAbs / 2 := by
    rw [Int.natAbs_tdiv]
    exact Nat.div_le_div_left (by omega) (by decide)
  rw [Fits]
  omega

theorem remainder?_remainder (a b : Int64) : Remainder a.toInt b.toInt (remainder? a b) := by
  rw [remainder?]
  split
  · next hb => exact .zeroDivision (by rw [hb]; rfl) rfl
  next hb =>
  have hne : b.toInt ≠ 0 := fun h => hb (Int64.toInt_inj.1 h)
  split
  · next hover =>
    rw [Option.isNone_iff_eq_none, int64OfInt?_eq_none_iff_not_fits, fits_tdiv_iff (fits_toInt a) hne,
      not_not] at hover
    exact .overflow hover.1 hover.2 rfl
  · next hfits =>
    rw [Option.isNone_iff_eq_none, int64OfInt?_eq_none_iff_not_fits, fits_tdiv_iff (fits_toInt a) hne,
      not_not] at hfits
    have hsmall : (a.toInt.tmod b.toInt).natAbs < b.toInt.natAbs := by
      rw [Int.natAbs_tmod]
      exact Nat.mod_lt _ (Int.natAbs_pos.2 hne)
    have hkind : (Fault.overflow .mod).kind = .overflow := rfl
    have hexact := ofInt?_exact hkind (a.toInt.tmod b.toInt)
    generalize ofInt? (.overflow .mod) (a.toInt.tmod b.toInt) = result at hexact
    cases hexact with
    | @value r hr =>
      refine .value (a.toInt.tdiv b.toInt) hne hfits ?_ (by rwa [hr]) ?_
      · rw [hr, Int.tdiv_mul_add_tmod]
      · rw [hr, Int.sign_tmod]
        split
        · next hdvd => exact Or.inl (Int.tmod_eq_zero_of_dvd hdvd)
        · exact Or.inr rfl
    | overflow hlarge =>
      -- What is left is smaller than the divisor, so it fits as that does.
      have hb := fits_toInt b
      unfold Fits at hb hlarge
      omega

/-- What is left has the sign of the dividend. -/
example : remainder? (-7) 3 = .ok (int (-1)) := rfl

theorem quotient?_quotient (a b : Int64) :
    Quotient b.toInt (quotient? (floatOfInt64 a) (floatOfInt64 b)) := by
  have hzero : (floatOfInt64 b == 0.0) = true ↔ b = 0 := by
    have h0 : (0.0 : Float) = floatOfInt64 0 := by decide +kernel
    rw [h0, floatOfInt64_beq_iff (Or.inr (by decide))]
  rw [quotient?]
  split
  · next h => exact .zeroDivision (by rw [hzero.1 h]; rfl) rfl
  · next h => exact .value fun hb => h (hzero.2 (Int64.toInt_inj.1 hb))

/-- What the operators make of two integers. -/
structure OperatorsExact (a b : Int64) : Prop where
  sum : Exact (a.toInt + b.toInt) (binary? .add (int a) (int b))
  difference : Exact (a.toInt - b.toInt) (binary? .sub (int a) (int b))
  product : Exact (a.toInt * b.toInt) (binary? .mul (int a) (int b))
  opposite : Exact (-a.toInt) (negate? (int a))
  remainder : Remainder a.toInt b.toInt (binary? .mod (int a) (int b))
  quotient : Quotient b.toInt (binary? .div (int a) (int b))

theorem operatorsExact (a b : Int64) : OperatorsExact a b where
  sum := ofInt?_exact rfl _
  difference := ofInt?_exact rfl _
  product := ofInt?_exact rfl _
  opposite := ofInt?_exact rfl _
  remainder := remainder?_remainder a b
  quotient := quotient?_quotient a b

/-! ### Where integers come from -/

theorem exists_of_ints {u v : Value} {a b : Int64} (h : NumberPair.of? u v = some (.ints a b)) :
    u = int a ∧ v = int b := by
  unfold NumberPair.of? at h
  split at h <;> cases h
  exact ⟨rfl, rfl⟩

theorem exists_of_arithmetic?_int {op : BinaryOp} {u v : Value} {n : Int64}
    (h : arithmetic? op u v = .ok (int n)) : op ≠ .div ∧ ∃ a b, u = int a ∧ v = int b := by
  unfold arithmetic? at h
  split at h
  · next hints => exact ⟨by decide, _, _, exists_of_ints hints⟩
  · next hints => exact ⟨by decide, _, _, exists_of_ints hints⟩
  · next hints => exact ⟨by decide, _, _, exists_of_ints hints⟩
  · unfold quotient? at h
    split at h <;> cases h
  · next hints => exact ⟨by decide, _, _, exists_of_ints hints⟩
  iterate 3 cases h
  · unfold quotient? at h
    split at h <;> cases h
  · unfold floatRemainder? at h
    split at h <;> cases h
  · cases h

/-- An operator gives back an integer only for two integers, and no quotient. -/
theorem exists_of_binary?_int {op : BinaryOp} {u v : Value} {n : Int64}
    (h : binary? op u v = .ok (int n)) :
    (op = .add ∨ op = .sub ∨ op = .mul ∨ op = .mod) ∧ ∃ a b, u = int a ∧ v = int b := by
  have hcompared {f : Ordering → Value} (hf : ∀ o, f o ≠ int n) :
      (order? op u v).map f ≠ .ok (int n) := by
    cases order? op u v with
    | ok o => exact fun ho => hf o (Except.ok.inj ho)
    | error fault => exact fun ho => nomatch ho
  cases op with
  | eq | ne | and | or => cases h
  | lt | gt | le | ge => exact absurd h (hcompared nofun)
  | add =>
    unfold binary? at h
    dsimp only at h
    split at h
    · cases h
    · exact ⟨by decide, (exists_of_arithmetic?_int h).2⟩
  | sub | mul | mod => exact ⟨by decide, (exists_of_arithmetic?_int h).2⟩
  | div => exact absurd rfl (exists_of_arithmetic?_int h).1

theorem exists_of_negate?_int {v : Value} {n : Int64} (h : negate? v = .ok (int n)) :
    ∃ a, v = int a := by
  cases v with
  | int a => exact ⟨a, rfl⟩
  | _ => cases h

end Value

end ScriptLang
