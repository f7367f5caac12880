namespace AccessRules

/-! Decimal values with exact digits, and the layout of their text.

A `Decimal` is a natural significand at a power of ten. `Layout` collects what a
text format decides about such a value; `Layout.write` is the only place where
digits are placed around a point or an exponent mark.
-/

namespace NaturalPower

/-- The power of natural numbers, the same one whatever else is in scope. -/
scoped instance (priority := 2000) power : Pow Nat Nat := instPowNat

end NaturalPower

open NaturalPower

/-- The value `significand * 10 ^ exponent`. -/
structure Decimal where
  significand : Nat
  exponent : Int
deriving DecidableEq, Repr

namespace Decimal

/-- The digits of the significand, the most significant one first. -/
def digits (value : Decimal) : List Char :=
  Nat.toDigits 10 value.significand

/-- The power of ten at which the first digit stands. -/
def leading (value : Decimal) : Int :=
  value.exponent + value.digits.length - 1

/-- No zero at the end that the exponent could carry. -/
def Canonical (value : Decimal) : Prop :=
  value.significand % 10 ≠ 0

def strip (significand : Nat) (exponent : Int) : Decimal :=
  if significand = 0 then ⟨0, 0⟩
  else if significand % 10 = 0 then strip (significand / 10) (exponent + 1)
  else ⟨significand, exponent⟩
termination_by significand

theorem strip_canonical {significand : Nat} (nonzero : significand ≠ 0) (exponent : Int) :
    (strip significand exponent).Canonical := by
  fun_induction strip significand exponent with
  | case1 => contradiction
  | case2 significand exponent _ divisible ih => exact ih (by omega)
  | case3 significand exponent _ indivisible => exact indivisible

/-- Stripping keeps the value: what the significand loses, the exponent gains. -/
theorem strip_shift {significand : Nat} (nonzero : significand ≠ 0) (exponent : Int) :
    ∃ moved : Nat, (strip significand exponent).exponent = exponent + moved ∧
      significand = (strip significand exponent).significand * 10 ^ moved := by
  fun_induction strip significand exponent with
  | case1 => contradiction
  | case2 significand exponent _ divisible ih =>
      obtain ⟨moved, exponentShift, significandShift⟩ := ih (by omega)
      refine ⟨moved + 1, by omega, ?_⟩
      rw [Nat.pow_succ, ← Nat.mul_assoc, ← significandShift]
      omega
  | case3 significand exponent _ indivisible => exact ⟨0, by simp, by simp⟩

/-- Which of two equally near digit strings is taken. -/
inductive Tie where
  | even
  | up
deriving DecidableEq, Repr

/-- The decisions of one text format for decimal values. -/
structure Layout where
  /-- The least power of ten of the first digit that is written without an exponent. -/
  plainFrom : Int
  /-- The greatest such power. -/
  plainTo : Int
  /-- Whether a whole number written without an exponent ends in `.0`. -/
  marksWhole : Bool
  tie : Tie
deriving DecidableEq, Repr

private def zeros (count : Int) : List Char :=
  List.replicate count.toNat '0'

/-- Digits around a point, for a first digit at the power `leading`. -/
def Layout.plain (layout : Layout) (digits : List Char) (leading : Int) : List Char :=
  if leading < 0 then
    '0' :: '.' :: zeros (-leading - 1) ++ digits
  else if (digits.length : Int) ≤ leading + 1 then
    digits ++ zeros (leading + 1 - digits.length) ++ (if layout.marksWhole then ['.', '0'] else [])
  else
    let whole := (leading + 1).toNat
    digits.take whole ++ '.' :: digits.drop whole

/-- One digit before the point and a signed exponent; the point is left out
after a lone digit. -/
def scientific (digits : List Char) (leading : Int) : List Char :=
  let mantissa := match digits with
    | first :: rest@(_ :: _) => first :: '.' :: rest
    | lone => lone
  mantissa ++ 'e' :: (if leading < 0 then '-' else '+') :: Nat.toDigits 10 leading.natAbs

def Layout.write (layout : Layout) (value : Decimal) : List Char :=
  if layout.plainFrom ≤ value.leading ∧ value.leading ≤ layout.plainTo then
    layout.plain value.digits value.leading
  else
    scientific value.digits value.leading

end Decimal

end AccessRules
