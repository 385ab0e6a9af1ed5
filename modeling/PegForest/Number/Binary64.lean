/-!
# Binary floating point from exact ratios

A 64-bit binary floating-point number is kept as its bit pattern.  `ofRatio` rounds a ratio of
natural numbers to the nearest such number, a tie to the even significand, in exact arithmetic:
the ratio is scaled by a power of two so that its quotient is a significand of 53 bits, or of fewer
where the exponent is already the least one, and the quotient is rounded once.

The significand and the exponent are packed by one addition.  A significand that rounds up to the
next power of two carries into the exponent by itself, and so does the step from the largest
subnormal number to the least normal one.
-/

set_option autoImplicit false

namespace PegForest

/-- A binary floating-point number of 64 bits, as its bit pattern. -/
structure Binary64 where
  bits : UInt64
  deriving DecidableEq, Repr

namespace Binary64

def infinityBits : Nat := 0x7FF0000000000000

def signBit : Nat := 0x8000000000000000

def ofMagnitude (negative : Bool) (magnitude : Nat) : Binary64 :=
  ⟨UInt64.ofNat (if negative then signBit + magnitude else magnitude)⟩

def zero (negative : Bool) : Binary64 :=
  ofMagnitude negative 0

def infinity (negative : Bool) : Binary64 :=
  ofMagnitude negative infinityBits

def nan : Binary64 :=
  ⟨0x7FF8000000000000⟩

def isNaN (x : Binary64) : Bool :=
  infinityBits < x.bits.toNat % signBit

/-- The quotient rounded to the nearest natural number, a tie to the even one. -/
def roundedQuotient (num den : Nat) : Nat :=
  let quotient := num / den
  let twice := 2 * (num % den)
  if twice < den then quotient
  else if den < twice then quotient + 1
  else quotient + quotient % 2

def scaled (num den : Nat) (exponent : Int) : Nat × Nat :=
  if 0 ≤ exponent then (num * Nat.pow 2 exponent.toNat, den)
  else (num, den * Nat.pow 2 (-exponent).toNat)

def floorLog2 (num den : Nat) : Int :=
  let guess : Int := (num.log2 : Int) - (den.log2 : Int)
  let (high, low) := scaled num den (-guess)
  if high < low then guess - 1 else guess

def leastExponent : Int := -1074

/-- The weight of the exponent in a bit pattern, which is two to the number of fraction bits. -/
def exponentUnit : Nat := 0x10000000000000

/-- The magnitude bits of the floating-point number nearest to a positive ratio. -/
def magnitudeOfRatio (num den : Nat) : Nat :=
  let exponent := max (floorLog2 num den - 52) leastExponent
  let (high, low) := scaled num den (-exponent)
  let packed := (exponent - leastExponent).toNat * exponentUnit + roundedQuotient high low
  min packed infinityBits

/-- The floating-point number nearest to a ratio, which is infinite when it is too large. -/
def ofRatio (negative : Bool) (num den : Nat) : Binary64 :=
  if num = 0 then zero negative else ofMagnitude negative (magnitudeOfRatio num den)

end Binary64

end PegForest
