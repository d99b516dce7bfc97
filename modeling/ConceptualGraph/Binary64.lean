/-
Module: ConceptualGraph.Binary64
Purpose: Binary floating-point numbers of 64 bits, given by their bits, with
  their exact values and correct rounding in whole-number arithmetic.
Main exports: Binary64, Binary64.Magnitude, Binary64.magnitude,
  Binary64.ofFraction
-/

namespace ConceptualGraph

/-- A floating-point number of 64 bits: a sign bit, eleven exponent bits and 52
fraction bits.  Two numbers are equal when their bits are, so the zeros differ and
a number without value equals itself. -/
structure Binary64 where
  bits : UInt64
  deriving DecidableEq, Repr

namespace Binary64

/-- What a number is apart from its sign. -/
inductive Magnitude where
  /-- The value `significand * 2 ^ exponent`. -/
  | finite (significand : Nat) (exponent : Int)
  | infinite
  | undefined
  deriving DecidableEq, Repr

/-- Whether the sign bit is set. -/
def isNegative (number : Binary64) : Bool :=
  Nat.pow 2 63 ≤ number.bits.toNat

/-- The magnitude that the lower 63 bits hold. -/
def magnitude (number : Binary64) : Magnitude :=
  let fraction : Nat := number.bits.toNat % Nat.pow 2 52
  let exponent : Nat := number.bits.toNat / Nat.pow 2 52 % Nat.pow 2 11
  if exponent = 0 then .finite fraction (-1074)
  else if exponent = 2047 then (if fraction = 0 then .infinite else .undefined)
  else .finite (Nat.pow 2 52 + fraction) ((exponent : Int) - 1075)

/-- The lower 63 bits of infinity. -/
def infiniteBits : Nat := 2047 * Nat.pow 2 52

/-- A number from its sign and its lower 63 bits. -/
def ofSignAndBits (negative : Bool) (lower : Nat) : Binary64 :=
  ⟨UInt64.ofNat (if negative then Nat.pow 2 63 + lower else lower)⟩

/-- The quotient rounded to the nearest whole number, a half to the even one. -/
def roundHalfEven (dividend divisor : Nat) : Nat :=
  let quotient := dividend / divisor
  let remainder := dividend % divisor
  if 2 * remainder < divisor then quotient
  else if divisor < 2 * remainder then quotient + 1
  else quotient + quotient % 2

/-- The largest exponent `e` with `2 ^ e ≤ dividend / divisor`. -/
def binaryExponent (dividend divisor : Nat) : Int :=
  let estimate := (dividend.log2 : Int) - divisor.log2
  let reached :=
    if 0 ≤ estimate then divisor * Nat.pow 2 estimate.toNat ≤ dividend
    else divisor ≤ dividend * Nat.pow 2 (-estimate).toNat
  if reached then estimate else estimate - 1

/-- The number nearest to a positive fraction, a tie going to the even significand.
The unit of the last place is `2 ^ place`; counting units from the smallest one
gives the lower bits directly, because a carry out of the significand is the next
exponent. -/
def ofFraction (negative : Bool) (dividend divisor : Nat) : Binary64 :=
  let place := max (-1074) (binaryExponent dividend divisor - 52)
  let units :=
    if 0 ≤ place then roundHalfEven dividend (divisor * Nat.pow 2 place.toNat)
    else roundHalfEven (dividend * Nat.pow 2 (-place).toNat) divisor
  ofSignAndBits negative (min infiniteBits ((place + 1074).toNat * Nat.pow 2 52 + units))

end Binary64

end ConceptualGraph
