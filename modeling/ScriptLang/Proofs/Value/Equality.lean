import ScriptLang.Proofs.Decimal.Conversion

/-!
# Equality of values

Two values are equal if equality sees the same in both. Of an integer beside a float it sees the
nearest double, but of two integers the integers themselves. This is an equivalence but for one kind
of chain: two integers that round to one float are both equal to it and not to one another.

## Main definitions

* `ValueKey`, `Value.key`: what equality sees of a value that is not compared as an integer
* `Value.isNaN`: the value is a float that is no number

## Main results

* `float_beq_iff`: two doubles are equal if they are one number
* `Value.key_eq_of_same`, `Value.same_of_key_eq`: equality by keys, for all but two integers
* `Value.same_trans`: the chains that lead to no equality
* `Value.same_equivalence`: reflexive but for what is no number, symmetric, and transitive but for the
  integers that share their double
-/

namespace ScriptLang

open Float.Model Float.Model.UnpackedFloat

/-! ### Doubles -/

/-- The number that a double stands for: the two zeros are one. -/
def unsigned : UnpackedFloat → UnpackedFloat
  | .zero _ => .zero .positive
  | u => u

theorem finite_compare_eq_iff {s s' : UnpackedFloat.Sign} {m m' : Nat} {e e' : Int} {h : 0 < m}
    {h' : 0 < m'} :
    (finite s m e h).compare (finite s' m' e' h') = some .eq ↔ finite s m e h = finite s' m' e' h' := by
  have hlex : (compare e e').then (compare m m') = .eq ↔ m = m' ∧ e = e' := by
    rw [Ordering.then_eq_eq, compare_eq_iff_eq, compare_eq_iff_eq, and_comm]
  cases s <;> cases s' <;> simp [UnpackedFloat.compare, hlex]

/-- Two numbers compare as equal if they are the same one. -/
theorem compare_eq_some_eq_iff (u v : UnpackedFloat) :
    u.compare v = some .eq ↔ u.isNaN = false ∧ unsigned u = unsigned v := by
  cases u with
  | infinity s =>
    cases v with
    | infinity s' =>
      have hsign : compare s s' = .eq ↔ s = s' := by
        cases s <;> cases s'
        · exact iff_of_true rfl rfl
        · exact iff_of_false nofun nofun
        · exact iff_of_false nofun nofun
        · exact iff_of_true rfl rfl
      simp [UnpackedFloat.compare, UnpackedFloat.isNaN, unsigned, hsign]
    | zero | notANumber | finite => cases s <;> simp [UnpackedFloat.compare, unsigned]
  | notANumber => simp [UnpackedFloat.compare, UnpackedFloat.isNaN]
  | zero s =>
    cases v with
    | infinity s' => cases s' <;> simp [UnpackedFloat.compare, unsigned]
    | zero s' => simp [UnpackedFloat.compare, UnpackedFloat.isNaN, unsigned]
    | notANumber => simp [UnpackedFloat.compare, unsigned]
    | finite s' => cases s' <;> simp [UnpackedFloat.compare, unsigned]
  | finite s m e h =>
    cases v with
    | finite s' m' e' h' => simp only [finite_compare_eq_iff, UnpackedFloat.isNaN, true_and, unsigned]
    | infinity s' => cases s' <;> simp [UnpackedFloat.compare, unsigned]
    | zero s' => cases s <;> simp [UnpackedFloat.compare, unsigned]
    | notANumber => simp [UnpackedFloat.compare, unsigned]

/-- Two doubles are equal if they are one number. -/
theorem float_beq_iff (x y : Float) :
    (x == y) = true ↔ x.isNaN = false ∧ unsigned x.toModel.unpack = unsigned y.toModel.unpack := by
  have hbeq : (x == y) = (x.toModel.unpack.compare y.toModel.unpack == some .eq) := rfl
  rw [hbeq, beq_iff_eq, compare_eq_some_eq_iff]
  rfl

theorem isNaN_eq_of_unsigned_eq {x y : Float}
    (h : unsigned x.toModel.unpack = unsigned y.toModel.unpack) : x.isNaN = y.isNaN := by
  have hunsigned (u : UnpackedFloat) : (unsigned u).isNaN = u.isNaN := by cases u <;> rfl
  calc x.isNaN
      = (unsigned x.toModel.unpack).isNaN := (hunsigned _).symm
    _ = (unsigned y.toModel.unpack).isNaN := congrArg _ h
    _ = y.isNaN := hunsigned _

theorem float_beq_comm (x y : Float) : (x == y) = (y == x) := by
  have hswap (x y : Float) (h : (x == y) = true) : (y == x) = true := by
    obtain ⟨hx, hnumber⟩ := (float_beq_iff x y).1 h
    exact (float_beq_iff y x).2 ⟨isNaN_eq_of_unsigned_eq hnumber ▸ hx, hnumber.symm⟩
  exact Bool.eq_iff_iff.2 ⟨hswap x y, hswap y x⟩

/-- The double of an integer is a number, and if it is zero, then without a sign. -/
theorem floatOfInt64_isNaN (n : Int64) : (floatOfInt64 n).isNaN = false := by
  have hdef : (floatOfInt64 n).isNaN = (floatOfInt64 n).toModel.unpack.isNaN := rfl
  by_cases h : n.toInt = 0
  · obtain rfl : n = 0 := Int64.toInt_inj.1 h
    rw [hdef, unpack_floatOfInt64_zero]
    rfl
  · obtain ⟨d, hd, -, -⟩ := exists_floatOfInt64 h
    rw [hdef, hd]
    rfl

theorem unsigned_floatOfInt64 (n : Int64) :
    unsigned (floatOfInt64 n).toModel.unpack = (floatOfInt64 n).toModel.unpack := by
  by_cases h : n.toInt = 0
  · obtain rfl : n = 0 := Int64.toInt_inj.1 h
    rw [unpack_floatOfInt64_zero]
    rfl
  · obtain ⟨d, hd, -, -⟩ := exists_floatOfInt64 h
    rw [hd]
    rfl

/-- The doubles of integers are equal if the integers are, unless both have more than 53 bits. -/
theorem floatOfInt64_beq_iff {a b : Int64}
    (h : a.toInt.natAbs < 2 ^ 53 ∨ b.toInt.natAbs < 2 ^ 53) :
    (floatOfInt64 a == floatOfInt64 b) = true ↔ a = b := by
  rw [float_beq_iff, unsigned_floatOfInt64, unsigned_floatOfInt64, floatOfInt64_isNaN]
  refine ⟨fun ⟨_, hab⟩ => ?_, fun hab => ⟨rfl, hab ▸ rfl⟩⟩
  obtain ha | hb := h
  · exact floatOfInt64_inj ha hab
  · exact (floatOfInt64_inj hb hab.symm).symm

/-! ### Values -/

/-- What equality sees of a value: its kind, and what tells the values of this kind apart. -/
inductive ValueKey where
  | number (u : UnpackedFloat)
  | string (s : String)
  | bool (b : Bool)
  | nil
  | function (id : ObjectId)
  | method (receiver : ScopeId) (id : ObjectId)
  | builtin (b : Builtin)
  | ofClass (id : ObjectId)
  | object (fields : ScopeId)
  | module (id : ModuleId)

namespace Value

/-- What equality sees of a value. An integer is rounded, as it is beside a float. -/
def key : Value → ValueKey
  | int n => .number (unsigned (floatOfInt64 n).toModel.unpack)
  | float x => .number (unsigned x.toModel.unpack)
  | string s => .string s
  | bool b => .bool b
  | nil => .nil
  | function f => .function f.id
  | method m => .method m.receiver.fields m.method.id
  | builtin b => .builtin b
  | ofClass c => .ofClass c.id
  | object i => .object i.fields
  | module m => .module m.id

/-- Whether a value is a float that is no number. -/
def isNaN : Value → Bool
  | float x => x.isNaN
  | _ => false

/-- Equal values have one key. -/
theorem key_eq_of_same {a b : Value} (h : same a b = true) : a.isNaN = false ∧ a.key = b.key := by
  cases a <;> cases b
  case float.int x n =>
    obtain ⟨-, hnumber⟩ := (float_beq_iff _ x).1 h
    have hx : x.isNaN = false := (isNaN_eq_of_unsigned_eq hnumber).symm.trans (floatOfInt64_isNaN n)
    exact ⟨hx, congrArg ValueKey.number hnumber.symm⟩
  all_goals simp_all [same, key, isNaN, float_beq_iff]

/-- Values with one key are equal, but for integers. -/
theorem same_of_key_eq {a b : Value} (ha : a.isNaN = false) (h : a.key = b.key) :
    same a b = true ∨ ∃ m n, a = int m ∧ b = int n := by
  cases a <;> cases b
  case int.int m n => exact Or.inr ⟨m, n, rfl, rfl⟩
  case int.float n x =>
    exact Or.inl ((float_beq_iff _ x).2 ⟨floatOfInt64_isNaN n, ValueKey.number.inj h⟩)
  case float.int x n =>
    exact Or.inl ((float_beq_iff _ x).2 ⟨floatOfInt64_isNaN n, (ValueKey.number.inj h).symm⟩)
  case float.float x y => exact Or.inl ((float_beq_iff x y).2 ⟨ha, ValueKey.number.inj h⟩)
  all_goals simp_all [same, key]

theorem same_self_iff (a : Value) : same a a = true ↔ a.isNaN = false := by
  cases a with
  | float x => exact (float_beq_iff x x).trans (and_iff_left rfl)
  | _ => simp [same, isNaN]

theorem same_comm (a b : Value) : same a b = same b a := by
  cases a <;> cases b
  case float.float x y => exact float_beq_comm x y
  all_goals simp [same, eq_comm]

/-- Two values that equal a third one are equal, unless they are integers and it is a float. -/
theorem same_trans {a b c : Value} (hab : same a b = true) (hbc : same b c = true) :
    same a c = true ∨ ∃ m x n, a = int m ∧ b = float x ∧ c = int n ∧ m ≠ n := by
  obtain ⟨hnan, hkey⟩ := key_eq_of_same hab
  obtain ⟨-, hkey'⟩ := key_eq_of_same hbc
  obtain hac | ⟨m, n, rfl, rfl⟩ := same_of_key_eq hnan (hkey.trans hkey')
  · exact Or.inl hac
  by_cases hmn : m = n
  · exact Or.inl (by simp [same, hmn])
  refine Or.inr ?_
  cases b with
  | int k =>
    -- Among integers alone nothing is rounded.
    have hm : m = k := by simpa [same] using hab
    have hn : k = n := by simpa [same] using hbc
    exact absurd (hm.trans hn) hmn
  | float x => exact ⟨m, x, n, rfl, rfl, rfl, hmn⟩
  | _ => simp [same] at hab

/-- Different integers that equal one float have more than 53 bits. -/
theorem long_of_same_float {m n : Int64} {x : Float} (hm : same (int m) (float x) = true)
    (hn : same (float x) (int n) = true) (hne : m ≠ n) : 2 ^ 53 ≤ m.toInt.natAbs := by
  obtain ⟨-, hkey⟩ := key_eq_of_same hm
  obtain ⟨-, hkey'⟩ := key_eq_of_same hn
  have hrounded := hkey.trans hkey'
  simp only [key, unsigned_floatOfInt64, ValueKey.number.injEq] at hrounded
  by_contra hshort
  exact hne (floatOfInt64_inj (Nat.lt_of_not_le hshort) hrounded)

/-- **Equality is an equivalence, but for integers that share their double.** It is reflexive but for
the floats that are no numbers, and symmetric. A chain of two equalities whose ends differ leads from an
integer by way of a float to another integer, and both of these are `2 ^ 53` or more in magnitude. -/
theorem same_equivalence (a b c : Value) :
    (same a a = true ↔ a.isNaN = false) ∧ same a b = same b a ∧
    (same a b = true → same b c = true →
      same a c = true ∨ ∃ m x n, a = int m ∧ b = float x ∧ c = int n ∧ m ≠ n ∧
        2 ^ 53 ≤ m.toInt.natAbs ∧ 2 ^ 53 ≤ n.toInt.natAbs) := by
  refine ⟨same_self_iff a, same_comm a b, fun hab hbc => ?_⟩
  obtain hac | ⟨m, x, n, rfl, rfl, rfl, hne⟩ := same_trans hab hbc
  · exact Or.inl hac
  · have hm := long_of_same_float hab hbc hne
    have hn := long_of_same_float (same_comm _ _ ▸ hbc) (same_comm _ _ ▸ hab) hne.symm
    exact Or.inr ⟨m, x, n, rfl, rfl, rfl, hne, hm, hn⟩

/-- The first integer without a double of its own: its neighbour equals the float beside both. -/
theorem not_same_trans :
    ¬ ∀ a b c : Value, a.isNaN = false → b.isNaN = false → c.isNaN = false →
      same a a = true ∧ (same a b = true → same b a = true) ∧
      (same a b = true → same b c = true → same a c = true) := by
  intro h
  have htrans := (h (int 9007199254740992) (float 9007199254740992.0) (int 9007199254740993)
    rfl (by decide +kernel) rfl).2.2
  have hfirst : same (int 9007199254740992) (float 9007199254740992.0) = true := by decide +kernel
  have hsecond : same (float 9007199254740992.0) (int 9007199254740993) = true := by decide +kernel
  exact absurd (htrans hfirst hsecond) (by decide +kernel)

end Value

end ScriptLang
