/-!
# Binary floating point with sixty-four bits

A number is its bit pattern, so equality is equality of bits: a NaN equals itself and the two
zeros differ. A finite number has the magnitude `significand * 2 ^ scale`, counted in units of the
least positive number, of which `2 ^ 1074` make one.
-/

namespace ResultCache

/-- A floating-point number, told apart by its bits. -/
structure Binary64 where
  /-- Sign, eleven exponent bits and fifty-two fraction bits, the sign highest. -/
  bits : UInt64
  deriving DecidableEq, Repr

namespace Binary64

def signBit : Nat := 1 <<< 63

/-- The weight that the first bit of a normal significand has, which is not written. -/
def hiddenBit : Nat := 1 <<< 52

/-- How many units make one. -/
def one : Nat := 1 <<< 1074

def isNegative (x : Binary64) : Bool := signBit ≤ x.bits.toNat

/-- The bits below the sign, in order of magnitude. -/
def magnitude (x : Binary64) : Nat := x.bits.toNat % signBit

/-- The magnitude pattern of infinity; larger patterns are NaNs. -/
def infinity : Nat := 2047 * hiddenBit

/-- The magnitude pattern of the NaN that is written as a word. -/
def nan : Nat := infinity + hiddenBit / 2

def isNaN (x : Binary64) : Bool := infinity < x.magnitude

def isInfinite (x : Binary64) : Bool := x.magnitude = infinity

def isFinite (x : Binary64) : Bool := x.magnitude < infinity

def isZero (x : Binary64) : Bool := x.magnitude = 0

/-- The integral significand; numbers below the smallest normal one have no implicit bit. -/
def significand (x : Binary64) : Nat :=
  if x.magnitude < hiddenBit then x.magnitude else x.magnitude % hiddenBit + hiddenBit

/-- The power of two that scales the significand. -/
def scale (x : Binary64) : Nat := x.magnitude / hiddenBit - 1

/-- The magnitude of a finite number, in units. -/
def units (x : Binary64) : Nat := x.significand <<< x.scale

def ofMagnitude (negative : Bool) (magnitude : Nat) : Binary64 :=
  ⟨UInt64.ofNat (magnitude % signBit + if negative then signBit else 0)⟩

end Binary64

/-- A floating-point number that is neither infinite nor a NaN. -/
structure Finite64 where
  number : Binary64
  finite : number.isFinite = true
  deriving DecidableEq

end ResultCache
