/-! The double nearest to a positive rational number, a half going to the even neighbour. -/

namespace Stencil.Decimal

/-- The quotient rounded to the nearest whole number, a half to the even one. -/
def roundedQuotient (num den : Nat) : Nat :=
  let quotient := num / den
  let twice := 2 * (num % den)
  if twice < den then quotient
  else if twice > den then quotient + 1
  else if quotient % 2 = 0 then quotient else quotient + 1

/-- Divides `num / den` by `2 ^ e`. -/
def overPower (num den : Nat) (e : Int) : Nat × Nat :=
  if e ≥ 0 then (num, den * Nat.pow 2 e.toNat) else (num * Nat.pow 2 (-e).toNat, den)

/-- The least exponent of a double whose significand is a whole number. -/
def leastExponent : Int := -1074

/-- The exponent that leaves at most 53 bits in front of the point. -/
def binaryExponent (num den : Nat) : Int :=
  let guess := max (Int.ofNat num.log2 - Int.ofNat den.log2 - 53) leastExponent
  let (n, d) := overPower num den guess
  if n / d ≥ Nat.pow 2 53 then guess + 1 else guess

/-- The bits of the double with the significand `m` at the exponent `e`; a significand of 54 bits
carries into the exponent. -/
def bitsOf (m : Nat) (e : Int) : UInt64 :=
  if m < Nat.pow 2 52 then UInt64.ofNat m
  else
    let bits := (e - leastExponent + 1).toNat * Nat.pow 2 52 + (m - Nat.pow 2 52)
    UInt64.ofNat (min bits (2047 * Nat.pow 2 52))

/-- The double nearest to `num / den`, where `den` is positive; infinite beyond the largest one. -/
def nearest (num den : Nat) : Float :=
  if num = 0 then 0
  else
    let e := binaryExponent num den
    let (n, d) := overPower num den e
    Float.ofBits (bitsOf (roundedQuotient n d) e)

/-- The double nearest to `digits * 10 ^ exponent`. Exponents out of all proportion are not written out. -/
def nearestDecimal (digits : Nat) (exponent : Int) : Float :=
  let size := Int.ofNat (Nat.toDigits 10 digits).length + exponent
  if digits = 0 || size < -400 then 0
  else if size > 400 then Float.ofBits (UInt64.ofNat (2047 * Nat.pow 2 52))
  else if exponent ≥ 0 then nearest (digits * Nat.pow 10 exponent.toNat) 1
  else nearest digits (Nat.pow 10 (-exponent).toNat)

end Stencil.Decimal
