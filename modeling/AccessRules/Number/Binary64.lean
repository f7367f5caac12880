import AccessRules.Number.Decimal

namespace AccessRules

/-! Binary floating-point numbers of 64 bits, computed on natural numbers.

A number is its sign and its magnitude code, the 63 bits below the sign read as
one natural number. The code grows with the value it stands for, so the
neighbours of a finite number are the codes beside its own, and rounding is a
single carry into the next code.
-/

open NaturalPower

structure Binary64 where
  negative : Bool
  code : Nat
  code_lt : code < 2 ^ (63 : Nat)
deriving DecidableEq

namespace Binary64

/-- The code of infinity. Every greater one is not a number. -/
def infinityCode : Nat := 2047 * 2 ^ (52 : Nat)

def ofBits (bits : UInt64) : Binary64 where
  negative := decide (2 ^ (63 : Nat) ≤ bits.toNat)
  code := bits.toNat % 2 ^ (63 : Nat)
  code_lt := Nat.mod_lt _ (by decide)

def toBits (number : Binary64) : UInt64 :=
  UInt64.ofNat ((if number.negative then 2 ^ (63 : Nat) else 0) + number.code)

def isNaN (number : Binary64) : Bool := decide (infinityCode < number.code)

def isInfinite (number : Binary64) : Bool := decide (number.code = infinityCode)

def isFinite (number : Binary64) : Bool := decide (number.code < infinityCode)

def isZero (number : Binary64) : Bool := decide (number.code = 0)

/-- Numeric equality: a number that is not one differs from itself, and the two
zeros agree. -/
def same (left right : Binary64) : Bool :=
  !left.isNaN && left.code == right.code &&
    (left.negative == right.negative || left.isZero)

def significand (code : Nat) : Nat :=
  if code < 2 ^ (52 : Nat) then code else 2 ^ (52 : Nat) + code % 2 ^ (52 : Nat)

/-- The power of two at which the significand of a finite code stands. -/
def scale (code : Nat) : Int :=
  if code < 2 ^ (52 : Nat) then -1074 else (code / 2 ^ (52 : Nat) : Nat) - 1075

/-- The magnitude of a finite code as a quotient of natural numbers. -/
def numerator (code : Nat) : Nat :=
  significand code * 2 ^ (scale code).toNat

def denominator (code : Nat) : Nat :=
  2 ^ (-scale code).toNat

/-- The nearest integer to a quotient; halves go to the even neighbour. -/
def roundToEven (numerator denominator : Nat) : Nat :=
  let floor := numerator / denominator
  let excess := 2 * (numerator % denominator)
  if excess < denominator ∨ excess = denominator ∧ floor % 2 = 0 then floor else floor + 1

/-- The power of two of the last bit that a magnitude of this size keeps. -/
def lastBit (numerator denominator : Nat) : Int :=
  let estimate : Int := numerator.log2 - denominator.log2
  let reached := denominator * 2 ^ estimate.toNat ≤ numerator * 2 ^ (-estimate).toNat
  max (-1074) ((if reached then estimate else estimate - 1) - 52)

/-- The code nearest to a quotient. A significand that rounds up to the next
power of two carries into the exponent by itself, because codes are consecutive. -/
def nearestCode (numerator denominator : Nat) : Nat :=
  if numerator = 0 then 0
  else
    let bit := lastBit numerator denominator
    let rounded := roundToEven (numerator * 2 ^ (-bit).toNat) (denominator * 2 ^ bit.toNat)
    min infinityCode ((bit + 1074).toNat * 2 ^ (52 : Nat) + rounded)

theorem nearestCode_le (numerator denominator : Nat) :
    nearestCode numerator denominator ≤ infinityCode := by
  unfold nearestCode
  split
  · exact Nat.zero_le _
  · exact Nat.min_le_left _ _

def ofRatio (negative : Bool) (numerator denominator : Nat) : Binary64 where
  negative := negative
  code := nearestCode numerator denominator
  code_lt := Nat.lt_of_le_of_lt (nearestCode_le _ _) (by decide)

def zero (negative : Bool) : Binary64 := ⟨negative, 0, by decide⟩

def infinity (negative : Bool) : Binary64 := ⟨negative, infinityCode, by decide⟩

def nan : Binary64 := ⟨false, infinityCode + 1, by decide⟩

def ofInt (value : Int) : Binary64 :=
  ofRatio (decide (value < 0)) value.natAbs 1

/-- The number nearest to a decimal value. Values beyond the range of every
finite number are settled by the place of their first digit alone. -/
def ofDecimal (negative : Bool) (value : Decimal) : Binary64 :=
  if value.significand = 0 then zero negative
  else if 310 < value.leading then infinity negative
  else if value.leading < -330 then zero negative
  else ofRatio negative (value.significand * 10 ^ value.exponent.toNat) (10 ^ (-value.exponent).toNat)

/-- The product of two finite numbers, rounded once. -/
def times (left right : Binary64) : Binary64 :=
  ofRatio (left.negative != right.negative) (numerator left.code * numerator right.code)
    (denominator left.code * denominator right.code)

/-- The quotient of two finite numbers, the second one not zero, rounded once. -/
def dividedBy (left right : Binary64) : Binary64 :=
  ofRatio (left.negative != right.negative) (numerator left.code * denominator right.code)
    (denominator left.code * numerator right.code)

/-- The greatest power of ten that is a finite number. -/
def decimalRange : Nat := 308

def powerOfTen (exponent : Nat) : Binary64 := ofRatio false (10 ^ exponent) 1

/-- A number moved by decimal places, at most `decimalRange` of them at a time and rounded
each time. Nothing comes of it where the outcome is too great. -/
def shiftDecimal (number : Binary64) (places : Int) : Option Binary64 :=
  if places.natAbs ≤ decimalRange then
    if 0 ≤ places then
      let moved := number.times (powerOfTen places.natAbs)
      if moved.isInfinite then none else some moved
    else some (number.dividedBy (powerOfTen places.natAbs))
  else if number.isZero then some number
  else if 0 ≤ places then none
  else shiftDecimal (number.dividedBy (powerOfTen decimalRange)) (places + decimalRange)
termination_by places.natAbs
decreasing_by
  unfold decimalRange at *
  omega

/-- The number that a 32-bit floating-point pattern stands for. The narrow
format's last bit stands at `2 ^ -149`, so the value is always exact. -/
def ofBinary32Bits (bits : UInt32) : Binary64 :=
  let negative := decide (2 ^ (31 : Nat) ≤ bits.toNat)
  let code := bits.toNat % 2 ^ (31 : Nat)
  let field := code / 2 ^ (23 : Nat)
  let fraction := code % 2 ^ (23 : Nat)
  if field = 255 then
    if fraction = 0 then infinity negative else nan
  else if field = 0 then ofRatio negative fraction (2 ^ (149 : Nat))
  else ofRatio negative ((2 ^ (23 : Nat) + fraction) * 2 ^ (field - 1)) (2 ^ (149 : Nat))

end Binary64

end AccessRules
