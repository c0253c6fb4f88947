import ScriptLang.Decimal.Binary64

/-!
# Shortest decimals

The decimal with the fewest digits among those that a double is nearest to. A decimal reads back as
the double exactly if it lies in the interval of the numbers that round to it, so the search takes
grids `ℤ · 10 ^ g` from coarse to fine until one has a point in the interval, and of two points takes
the one nearer to the double.

## Main definitions

* `RoundingInterval`: the numbers that round to a positive double
* `RoundingInterval.nearestOn`: the point of a grid that stands for the double, if there is one
* `RoundingInterval.shortest`: the point of the coarsest grid that has one
-/

namespace ScriptLang

/-- The decimal number `digits · 10 ^ exponent`. -/
structure Decimal where
  digits : Nat
  exponent : Int
  deriving DecidableEq, Repr, Inhabited

/-- The numbers that round to a positive double, all in units of `2 ^ unit`. -/
structure RoundingInterval where
  low : Nat
  value : Nat
  high : Nat
  unit : Int
  /-- Whether the ends round to the double themselves. -/
  closed : Bool
  deriving Repr

namespace RoundingInterval

/-- The interval of `mantissa · 2 ^ exponent`. The ends lie half way to the neighbours; below a power
of two the neighbours are twice as dense. Half-way numbers round to the even mantissa. -/
def ofParts (mantissa : Nat) (exponent : Int) : RoundingInterval where
  low := 4 * mantissa -
    (if mantissa = Binary64.leadingBit ∧ Binary64.leastExponent < exponent then 1 else 2)
  value := 4 * mantissa
  high := 4 * mantissa + 2
  unit := exponent - 2
  closed := mantissa % 2 = 0

/-- The factors that bring numbers in units of `2 ^ unit` and points of the grid `ℤ · 10 ^ g` to one
whole unit. -/
def scales (unit g : Int) : Nat × Nat :=
  (Nat.pow 10 (-g).toNat <<< unit.toNat, Nat.pow 10 g.toNat <<< (-unit).toNat)

/-- Whether the point `k · 10 ^ g` rounds to the double. -/
def covers (r : RoundingInterval) (g : Int) (k : Nat) : Bool :=
  let (s, t) := scales r.unit g
  if r.closed then r.low * s ≤ k * t && k * t ≤ r.high * s
  else r.low * s < k * t && k * t < r.high * s

/-- The point of the grid `ℤ · 10 ^ g` that stands for the double: of the two next to it the one that
rounds to it, the nearer if both do, and the greater if both are as near. -/
def nearestOn (r : RoundingInterval) (g : Int) : Option Nat :=
  let (s, t) := scales r.unit g
  -- The double lies between `below` and the point after it.
  let below := r.value * s / t
  match r.covers g below, r.covers g (below + 1) with
  | true, true => some (if 2 * (r.value * s % t) < t then below else below + 1)
  | true, false => some below
  | false, true => some (below + 1)
  | false, false => none

/-- Search the grids from `10 ^ g` on, each ten times as fine as the one before. -/
def search (r : RoundingInterval) : Nat → Int → Decimal
  | 0, g => ⟨r.value * (scales r.unit g).1 / (scales r.unit g).2, g⟩
  | steps + 1, g =>
    match r.nearestOn g with
    | some k => ⟨k, g⟩
    | none => r.search steps (g - 1)

/-- An exponent of ten above the double: a little more than its exponent of two times `log₁₀ 2`. -/
def coarsest (r : RoundingInterval) : Int :=
  ((r.value.log2 : Int) + r.unit) * 30103 / 100000 + 2

/-- The decimal with the fewest digits that rounds to the double, and of those the nearest. Seventeen
digits always suffice, and the search starts at most three grids above the first digit. -/
def shortest (r : RoundingInterval) : Decimal := r.search 21 r.coarsest

end RoundingInterval

end ScriptLang
