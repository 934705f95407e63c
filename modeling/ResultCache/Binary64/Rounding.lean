import ResultCache.Binary64.Basic

/-!
# Rounding to the nearest floating-point number

Every operation is exact on ratios of natural numbers and rounds once, to the nearest number and
on a tie to the even significand; what exceeds the largest number becomes infinity.
-/

namespace ResultCache

/-- The quotient rounded to the nearest integer, a half to the even one. -/
def divideToEven (num den : Nat) : Nat :=
  let q := num / den
  let twice := 2 * (num % den)
  if den < twice ∨ (twice = den ∧ q % 2 = 1) then q + 1 else q

namespace Binary64

/-- The magnitude pattern nearest to `num / den`. A significand that rounds up to `2 ^ 53` carries
into the exponent field, which is the pattern of the next power of two. -/
def nearest (num den : Nat) : Nat :=
  let units := num * one
  let scale := (units / den).log2 - 52
  min (scale * hiddenBit + divideToEven units (den <<< scale)) infinity

def ofNat (n : Nat) : Binary64 := ofMagnitude false (nearest n 1)

def times (x y : Binary64) : Binary64 :=
  ofMagnitude false (nearest (x.units * y.units) (one * one))

def quotient (x y : Binary64) : Binary64 :=
  ofMagnitude false (nearest x.units y.units)

def signed (negative : Bool) (x : Binary64) : Binary64 := ofMagnitude negative x.magnitude

/-- The number nearest to `digits * 10 ^ exponent`. Exponents far outside the range of the format
are answered without computing the power. -/
def ofDecimal (digits : Nat) (exponent : Int) : Binary64 :=
  let order := exponent + (Nat.toDigits 10 digits).length
  if digits = 0 ∨ order < -400 then ofMagnitude false 0
  else if 400 < order then ofMagnitude false infinity
  else if 0 ≤ exponent then ofMagnitude false (nearest (digits * Nat.pow 10 exponent.toNat) 1)
  else ofMagnitude false (nearest digits (Nat.pow 10 (-exponent).toNat))

/-- The nearest unsigned 64-bit integer, a half away from zero; out of range it is the bound, and
zero for a NaN. -/
def roundToUInt64 (x : Binary64) : UInt64 :=
  if x.isNaN || x.isNegative then 0
  else if x.isInfinite then UInt64.ofNat (UInt64.size - 1)
  else UInt64.ofNat (min ((2 * x.units + one) / (2 * one)) (UInt64.size - 1))

end Binary64
end ResultCache
