import AccessRules.Number.Shortest
import AccessRules.Proofs.Number.Rounding

namespace AccessRules

open NaturalPower

namespace Decimal

def toRat (value : Decimal) : ℚ := value.significand * (10 : ℚ) ^ value.exponent

theorem length_digits_pos (value : Decimal) : 0 < value.digits.length :=
  Nat.length_toDigits_pos

theorem lt_pow_length_digits (value : Decimal) :
    value.significand < 10 ^ value.digits.length :=
  (Nat.length_toDigits_le_iff (by norm_num) value.length_digits_pos).mp le_rfl

theorem pow_length_digits_le {value : Decimal} (nonzero : value.significand ≠ 0) :
    10 ^ (value.digits.length - 1) ≤ value.significand := by
  by_cases single : value.digits.length - 1 = 0
  · rw [single, pow_zero]
    exact Nat.one_le_iff_ne_zero.mpr nonzero
  · have fewer := Nat.length_toDigits_le_iff (n := value.significand) (b := 10) (by norm_num)
      (Nat.pos_of_ne_zero single)
    have longer : ¬ value.digits.length ≤ value.digits.length - 1 := by
      have positive := value.length_digits_pos
      omega
    exact not_lt.mp (mt fewer.mpr longer)

theorem toRat_bounds {value : Decimal} (nonzero : value.significand ≠ 0) :
    (10 : ℚ) ^ value.leading ≤ value.toRat ∧ value.toRat < (10 : ℚ) ^ (value.leading + 1) := by
  have positive := value.length_digits_pos
  have unit : (0 : ℚ) < 10 ^ value.exponent := by positivity
  constructor
  · have lower : ((10 ^ (value.digits.length - 1) : Nat) : ℚ) ≤ value.significand := by
      exact_mod_cast pow_length_digits_le nonzero
    calc (10 : ℚ) ^ value.leading
        = ((10 ^ (value.digits.length - 1) : Nat) : ℚ) * (10 : ℚ) ^ value.exponent := by
          push_cast
          rw [← zpow_natCast, ← zpow_add₀ (by norm_num)]
          congr 1
          unfold leading
          omega
      _ ≤ value.toRat := mul_le_mul_of_nonneg_right lower unit.le
  · have upper : (value.significand : ℚ) < ((10 ^ value.digits.length : Nat) : ℚ) := by
      exact_mod_cast value.lt_pow_length_digits
    calc value.toRat
        < ((10 ^ value.digits.length : Nat) : ℚ) * (10 : ℚ) ^ value.exponent :=
          mul_lt_mul_of_pos_right upper unit
      _ = (10 : ℚ) ^ (value.leading + 1) := by
          push_cast
          rw [← zpow_natCast, ← zpow_add₀ (by norm_num)]
          congr 1
          unfold leading
          omega

end Decimal

namespace Binary64

theorem Nearest.le_of_magnitude_le {value : ℚ} {code other : Nat} (nearest : Nearest value code)
    (reached : magnitude other ≤ value) : other ≤ code := by
  by_contra! below
  have less : magnitude code < magnitude other := magnitude_strictMono below
  have closest := nearest.closest other
  rw [abs_of_nonneg (by linarith), abs_of_nonneg (by linarith)] at closest
  linarith

theorem Nearest.le_of_le_magnitude {value : ℚ} {code other : Nat} (nearest : Nearest value code)
    (reached : value ≤ magnitude other) : code ≤ other := by
  by_contra! above
  have less : magnitude other < magnitude code := magnitude_strictMono above
  have closest := nearest.closest other
  rw [abs_of_nonpos (by linarith), abs_of_nonpos (by linarith)] at closest
  linarith

theorem Nearest.eq_zero {value : ℚ} {code : Nat} (nearest : Nearest value code)
    (nonneg : 0 ≤ value) (small : 2 * value < magnitude 1) : code = 0 := by
  by_contra nonzero
  have least : magnitude 1 ≤ magnitude code :=
    magnitude_strictMono.monotone (Nat.one_le_iff_ne_zero.mpr nonzero)
  have closest := nearest.closest 0
  rw [magnitude_zero, sub_zero, abs_of_nonneg nonneg, abs_of_neg (by linarith)] at closest
  linarith

theorem magnitude_infinityCode : magnitude infinityCode = (2 : ℚ) ^ (1024 : Int) := by
  have place : (infinityCode : Int) = (971 + 1074) * 2 ^ (52 : Nat) + (2 ^ (53 : Nat) : Nat) := by
    decide
  have steps : ((2 ^ (53 : Nat) : Nat) : ℚ) = (2 : ℚ) ^ (53 : Int) := by norm_num
  rw [magnitude_of_code_eq place (by norm_num) le_rfl (.inr (by norm_num)), steps,
    ← zpow_add₀ two_ne_zero]
  rfl

theorem magnitude_one : magnitude 1 = (2 : ℚ) ^ (-1074 : Int) := by
  simp [magnitude, significand, scale]

theorem magnitude_infinityCode_le : magnitude infinityCode ≤ (10 : ℚ) ^ (311 : Int) := by
  rw [magnitude_infinityCode]
  have bound : 2 ^ 1024 ≤ 10 ^ 311 := by decide +kernel
  exact_mod_cast bound

theorem lt_magnitude_one : 2 * (10 : ℚ) ^ (-330 : Int) < magnitude 1 := by
  have bound : 2 * 2 ^ 1074 < 10 ^ 330 := by decide +kernel
  rw [magnitude_one, zpow_neg, zpow_neg, ← div_eq_mul_inv, div_lt_iff₀ (by positivity),
    ← div_eq_inv_mul, lt_div_iff₀ (by positivity)]
  exact_mod_cast bound

theorem toRat_eq_ratio (value : Decimal) :
    value.toRat = ((value.significand * 10 ^ value.exponent.toNat : Nat) : ℚ) /
      (10 ^ (-value.exponent).toNat : Nat) := by
  push_cast
  rw [mul_div_assoc, pow_toNat_div_pow_toNat_neg, Decimal.toRat]

/-- Reading gives the number nearest to the value. The short cuts for values out of every
range agree with that. -/
theorem ofDecimal_spec (negative : Bool) (value : Decimal) :
    ∃ code, Nearest value.toRat code ∧ (ofDecimal negative value).negative = negative ∧
      (ofDecimal negative value).code = min infinityCode code := by
  have unit : 0 < 10 ^ (-value.exponent).toNat := by positivity
  obtain ⟨code, nearest, rounded⟩ :=
    nearestCode_spec (value.significand * 10 ^ value.exponent.toNat) unit
  rw [← toRat_eq_ratio] at nearest
  have nonneg : 0 ≤ value.toRat := by
    unfold Decimal.toRat
    positivity
  refine ⟨code, nearest, ?_⟩
  unfold ofDecimal
  split
  next none =>
    have least : 2 * value.toRat < magnitude 1 := by
      rw [Decimal.toRat, none, Nat.cast_zero, zero_mul, mul_zero, ← magnitude_zero]
      exact magnitude_strictMono Nat.zero_lt_one
    exact ⟨rfl, by simp [zero, nearest.eq_zero nonneg least]⟩
  next some =>
    obtain ⟨lower, upper⟩ := Decimal.toRat_bounds some
    split
    next large =>
      have reached : magnitude infinityCode ≤ value.toRat := by
        refine magnitude_infinityCode_le.trans (le_trans ?_ lower)
        exact zpow_le_zpow_right₀ (by norm_num) (by omega)
      exact ⟨rfl, by simp [infinity, nearest.le_of_magnitude_le reached]⟩
    next =>
      split
      next small =>
        have least : 2 * value.toRat < magnitude 1 := by
          have bound : (10 : ℚ) ^ (value.leading + 1) ≤ 10 ^ (-330 : Int) :=
            zpow_le_zpow_right₀ (by norm_num) (by omega)
          have short := lt_magnitude_one
          linarith
        exact ⟨rfl, by simp [zero, nearest.eq_zero nonneg least]⟩
      next => exact ⟨rfl, rounded⟩

theorem ext {left right : Binary64} (sign : left.negative = right.negative)
    (code : left.code = right.code) : left = right := by
  cases left
  cases right
  simp_all

theorem ofDecimal_eq_iff {number : Binary64} (finite : number.isFinite = true)
    (value : Decimal) :
    ofDecimal number.negative value = number ↔ Nearest value.toRat number.code := by
  have below : number.code < infinityCode := of_decide_eq_true finite
  obtain ⟨code, nearest, sign, rounded⟩ := ofDecimal_spec number.negative value
  constructor
  · intro same
    rw [same] at rounded
    have exact : code = number.code := by omega
    rwa [exact] at nearest
  · intro near
    refine ext sign ?_
    rw [rounded, nearest.unique near]
    omega

/-- The digits of a value may be written in any way. -/
theorem ofDecimal_congr (negative : Bool) {left right : Decimal}
    (same : left.toRat = right.toRat) : ofDecimal negative left = ofDecimal negative right := by
  obtain ⟨code, nearest, sign, rounded⟩ := ofDecimal_spec negative left
  obtain ⟨other, near, otherSign, otherRounded⟩ := ofDecimal_spec negative right
  rw [same] at nearest
  exact ext (sign.trans otherSign.symm) (by rw [rounded, otherRounded, nearest.unique near])

theorem toRat_strip (significand : Nat) (exponent : Int) :
    (Decimal.strip significand exponent).toRat = significand * (10 : ℚ) ^ exponent := by
  by_cases zero : significand = 0
  · simp [zero, Decimal.strip, Decimal.toRat]
  · obtain ⟨moved, shifted, whole⟩ := Decimal.strip_shift zero exponent
    rw [Decimal.toRat, shifted]
    conv_rhs => rw [whole]
    push_cast
    rw [zpow_add₀ (by norm_num), zpow_natCast]
    ring

theorem toRat_exactDecimal (code : Nat) : (exactDecimal code).toRat = magnitude code := by
  rw [exactDecimal, toRat_strip, numerator, magnitude]
  have ratio := pow_toNat_div_pow_toNat_neg 2 (scale code)
  have ten : (10 : ℚ) ^ (-((-scale code).toNat : Int)) =
      ((2 : ℚ) ^ (-scale code).toNat)⁻¹ * ((5 : ℚ) ^ (-scale code).toNat)⁻¹ := by
    rw [zpow_neg, zpow_natCast, ← mul_inv, ← mul_pow]
    norm_num
  rw [ten, ← ratio]
  push_cast
  field_simp

theorem nearest_of_readsBack {code : Nat} (finite : code < infinityCode) {value : Decimal}
    (read : readsBack code value = true) : Nearest value.toRat code := by
  obtain ⟨nearestCode, nearest, _, rounded⟩ := ofDecimal_spec false value
  have same : (ofDecimal false value).code = code := beq_iff_eq.mp read
  have exact : nearestCode = code := by omega
  rwa [exact] at nearest

theorem GridNeighbours.eq_strip_of_choose {grid : GridNeighbours} {tie : Decimal.Tie} {code : Nat}
    {value : Decimal} (chosen : grid.choose tie code = some value) :
    ∃ significand exponent, value = Decimal.strip significand exponent := by
  unfold GridNeighbours.choose at chosen
  grind

/-- Either some grid shows a decimal that reads back, or all digits are given. -/
theorem shortestOfCode_cases (tie : Decimal.Tie) (code : Nat) :
    (∃ grid : GridNeighbours, grid.choose tie code = some (shortestOfCode tie code)) ∨
      shortestOfCode tie code = exactDecimal code := by
  unfold shortestOfCode
  dsimp only
  cases found : (List.range 17).findSome? fun index =>
      (GridNeighbours.of code (decimalPoint code) (index + 1)).choose tie code with
  | none => exact .inr rfl
  | some value =>
      obtain ⟨index, _, chosen⟩ := List.exists_of_findSome?_eq_some found
      exact .inl ⟨_, chosen⟩

theorem nearest_shortest {number : Binary64} (finite : number.isFinite = true)
    (tie : Decimal.Tie) : Nearest (number.shortest tie).toRat number.code := by
  rw [shortest]
  rcases shortestOfCode_cases tie number.code with ⟨grid, chosen⟩ | all
  · exact nearest_of_readsBack (of_decide_eq_true finite) (GridNeighbours.readsBack_of_choose chosen)
  · rw [all, toRat_exactDecimal]
    exact nearest_magnitude number.code

theorem ofDecimal_shortest {number : Binary64} (finite : number.isFinite = true)
    (tie : Decimal.Tie) : ofDecimal number.negative (number.shortest tie) = number :=
  (ofDecimal_eq_iff finite _).mpr (nearest_shortest finite tie)

theorem significand_shortest_ne_zero {number : Binary64} (finite : number.isFinite = true)
    (nonzero : number.isZero = false) (tie : Decimal.Tie) :
    (number.shortest tie).significand ≠ 0 := by
  intro none
  have nearest := nearest_shortest finite tie
  rw [Decimal.toRat, none, Nat.cast_zero, zero_mul, ← magnitude_zero] at nearest
  exact of_decide_eq_false nonzero (nearest.unique (nearest_magnitude 0))

theorem canonical_shortest {number : Binary64} (finite : number.isFinite = true)
    (nonzero : number.isZero = false) (tie : Decimal.Tie) :
    (number.shortest tie).Canonical := by
  have some := significand_shortest_ne_zero finite nonzero tie
  obtain ⟨significand, exponent, stripped⟩ : ∃ significand exponent,
      number.shortest tie = Decimal.strip significand exponent := by
    rw [shortest]
    rcases shortestOfCode_cases tie number.code with ⟨grid, chosen⟩ | all
    · exact GridNeighbours.eq_strip_of_choose chosen
    · exact ⟨_, _, all⟩
  rw [stripped] at some ⊢
  refine Decimal.strip_canonical ?_ exponent
  rintro rfl
  exact some (by simp [Decimal.strip])

end Binary64

end AccessRules
