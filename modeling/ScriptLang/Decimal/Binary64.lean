/-!
# Doubles as dyadic numbers

A finite double is a sign, a mantissa and a power of two. On these parts truncation and remainder
are exact integer computations.

## Main definitions

* `Binary64.ofFloat`, `Binary64.toFloat`: a double and its parts
* `Float.truncated?`: the integer part
* `Float.remainder`: what is left after taking away whole multiples
-/

namespace ScriptLang

/-- What a double denotes. -/
inductive Binary64 where
  | nan
  | infinite (negative : Bool)
  /-- The number `± mantissa · 2 ^ exponent`. -/
  | finite (negative : Bool) (mantissa : Nat) (exponent : Int)
  deriving DecidableEq, Repr, Inhabited

namespace Binary64

/-- The exponent of the least positive double, and of every double below the normal ones. -/
def leastExponent : Int := -1074

/-- How many bits of the mantissa are written down. A normal double has one more, which is set. -/
def fractionBits : Nat := 52

/-- The leading bit of the mantissa of a normal double. -/
def leadingBit : Nat := 0x10000000000000

/-- The bit that tells negative doubles. -/
def signBit : Nat := 0x8000000000000000

/-- The exponent field of infinities and of what is no number. -/
def greatestField : Nat := 0x7FF

/-- The number of a double, read off its 64 bits: a sign, eleven bits of exponent, 52 of mantissa. -/
def ofFloat (x : Float) : Binary64 :=
  let bits : Nat := x.toBits.toNat
  let negative : Bool := signBit ≤ bits
  let field : Nat := bits / leadingBit % (greatestField + 1)
  let fraction : Nat := bits % leadingBit
  if field = greatestField then
    if fraction = 0 then .infinite negative else .nan
  else if field = 0 then .finite negative fraction leastExponent
  else .finite negative (fraction + leadingBit) (field + leastExponent - 1)

/-- The bits of `mantissa · 2 ^ exponent`, for a number that is a double. -/
def bitsOfFinite (mantissa : Nat) (exponent : Int) : Nat :=
  if mantissa = 0 then 0
  else
    let top := (mantissa.log2 : Int) + exponent
    if top < leastExponent + fractionBits then mantissa <<< (exponent - leastExponent).toNat
    else
      let aligned :=
        if mantissa.log2 ≤ fractionBits then mantissa <<< (fractionBits - mantissa.log2)
        else mantissa >>> (mantissa.log2 - fractionBits)
      let field := (top - leastExponent - fractionBits + 1).toNat
      field * leadingBit + (aligned - leadingBit)

/-- The double with the given parts. -/
def toFloat : Binary64 → Float
  | .nan => 0.0 / 0.0
  | .infinite negative => if negative then -1.0 / 0.0 else 1.0 / 0.0
  | .finite negative mantissa exponent =>
    let bits := bitsOfFinite mantissa exponent
    Float.ofBits (UInt64.ofNat (if negative then bits + signBit else bits))

end Binary64

/-- The integer part of a finite double, towards zero. -/
def Float.truncated? (x : Float) : Option Int :=
  match Binary64.ofFloat x with
  | .finite negative mantissa exponent =>
    let magnitude : Nat :=
      if exponent < 0 then mantissa >>> (-exponent).toNat else mantissa <<< exponent.toNat
    some (if negative then -(magnitude : Int) else magnitude)
  | _ => none

/-- The remainder of a division with a whole quotient, rounded towards zero: it is exact and has the
sign of the dividend. An infinite dividend and a zero divisor have none; an infinite divisor leaves
the dividend. -/
def Float.remainder (x y : Float) : Float :=
  match Binary64.ofFloat x, Binary64.ofFloat y with
  | .finite negative m p, .finite _ n q =>
    if n = 0 then Binary64.nan.toFloat
    else
      let unit := min p q
      let rest := (m <<< (p - unit).toNat) % (n <<< (q - unit).toNat)
      (Binary64.finite negative rest unit).toFloat
  | .finite .., .infinite _ => x
  | _, _ => Binary64.nan.toFloat

end ScriptLang
