/-!
# Sixty-four bit floating-point numbers

A floating-point literal keeps the bits of its IEEE-754 double. This module
rounds a ratio of naturals to the nearest double, a half going to the even
neighbour. It does no arithmetic.
-/

namespace DocblockScan

/-- A double, given by its bits. -/
structure Binary64 where
  bits : UInt64
deriving Repr, DecidableEq

namespace Binary64

/-- A power of two. -/
def twoTo (exponent : Nat) : Nat := Nat.pow 2 exponent

/-- The bit that marks a negative double. -/
def signBit : Nat := twoTo 63

/-- The magnitude bits of infinity; finite magnitudes lie below. -/
def infinityBits : Nat := 2047 * twoTo 52

/-- The least exponent of a unit in the last place. -/
def leastExponent : Int := -1074

/-- The quotient rounded to the nearest natural; a half goes to the even one. -/
def roundHalfEven (numerator denominator : Nat) : Nat :=
  let quotient := numerator / denominator
  let twice := 2 * (numerator % denominator)
  if twice < denominator then quotient
  else if denominator < twice then quotient + 1
  else quotient + quotient % 2

/-- A ratio measured in units of two to an exponent, as a numerator and a
denominator. -/
def inUnits (numerator denominator : Nat) (exponent : Int) : Nat × Nat :=
  (numerator * twoTo (-exponent).toNat, denominator * twoTo exponent.toNat)

/-- The exponent of the last place that a positive ratio is rounded at. -/
def exponentOf (numerator denominator : Nat) : Int :=
  let rough : Int := (numerator.log2 : Int) - denominator.log2 - 53
  let exponent := max rough leastExponent
  let (scaled, unit) := inUnits numerator denominator exponent
  if twoTo 53 ≤ scaled / unit then exponent + 1 else exponent

/-- The magnitude bits of the double nearest to a ratio. What is too large
becomes infinity. -/
def magnitudeBits (numerator denominator : Nat) : Nat :=
  if numerator = 0 then 0
  else
    let exponent := exponentOf numerator denominator
    let (scaled, unit) := inUnits numerator denominator exponent
    let places := (exponent - leastExponent).toNat
    min (places * twoTo 52 + roundHalfEven scaled unit) infinityBits

/-- The double nearest to a ratio, with a sign that also zero keeps. -/
def ofRatio (negative : Bool) (numerator denominator : Nat) : Binary64 :=
  ⟨.ofNat (magnitudeBits numerator denominator + if negative then signBit else 0)⟩

/-- The bits without the sign. -/
def magnitude (number : Binary64) : Nat :=
  number.bits.toNat % signBit

/-- Whether the double is neither infinite nor a non-number. -/
def isFinite (number : Binary64) : Bool :=
  number.magnitude < infinityBits

end Binary64

end DocblockScan
