import AccessRules.Proofs.Number.Nearest
import Mathlib.Tactic.FieldSimp

namespace AccessRules.Binary64

/-! Rounding computes nearest codes.

The last bit that a quotient keeps goes by its binary logarithm alone. Counted in units of
that bit the quotient has a nearest whole number, and its code is the nearest one.
-/

open NaturalPower

theorem pow_toNat_div_pow_toNat_neg (base : ℚ) (exponent : Int) :
    base ^ exponent.toNat / base ^ (-exponent).toNat = base ^ exponent := by
  obtain ⟨size, rfl | rfl⟩ := exponent.eq_nat_or_neg
  · simp
  · simp [zpow_neg]

/-- What rounding leaves below or adds above is at most half of the divisor, and exactly half
only where the result is even. -/
theorem roundToEven_rest (numerator : Nat) {denominator : Nat} (positive : 0 < denominator) :
    ∃ rest, (numerator = denominator * roundToEven numerator denominator + rest ∨
        numerator + rest = denominator * roundToEven numerator denominator) ∧
      2 * rest ≤ denominator ∧
      (2 * rest = denominator → roundToEven numerator denominator % 2 = 0) := by
  have whole := Nat.div_add_mod numerator denominator
  have less := Nat.mod_lt numerator positive
  unfold roundToEven
  dsimp only
  split
  next low => exact ⟨numerator % denominator, .inl whole.symm, by omega, by omega⟩
  next high =>
      refine ⟨denominator - numerator % denominator, .inr ?_, by omega, by omega⟩
      rw [Nat.mul_add_one]
      omega

theorem roundToEven_close (numerator : Nat) {denominator : Nat} (positive : 0 < denominator) :
    |(numerator : ℚ) / denominator - roundToEven numerator denominator| ≤ 1 / 2 ∧
      (|(numerator : ℚ) / denominator - roundToEven numerator denominator| = 1 / 2 →
        roundToEven numerator denominator % 2 = 0) := by
  obtain ⟨rest, sum, small, tie⟩ := roundToEven_rest numerator positive
  generalize roundToEven numerator denominator = rounded at sum tie ⊢
  have size : (0 : ℚ) < denominator := by exact_mod_cast positive
  have distance : |(numerator : ℚ) / denominator - rounded| = rest / denominator := by
    rcases sum with below | above
    · have sum : (numerator : ℚ) = denominator * rounded + rest := by exact_mod_cast below
      have signed : (numerator : ℚ) / denominator - rounded = rest / denominator := by
        field_simp
        linarith
      rw [signed, abs_of_nonneg (by positivity)]
    · have sum : (numerator : ℚ) + rest = denominator * rounded := by exact_mod_cast above
      have signed : (numerator : ℚ) / denominator - rounded = -(rest / denominator) := by
        field_simp
        linarith
      rw [signed, abs_neg, abs_of_nonneg (by positivity)]
  rw [distance, div_le_div_iff₀ size two_pos, div_eq_div_iff size.ne' two_ne_zero]
  constructor
  · have bound : (2 : ℚ) * rest ≤ denominator := by exact_mod_cast small
    linarith
  · intro half
    have equal : (2 : ℚ) * rest = denominator := by linarith
    exact tie (by exact_mod_cast equal)

theorem log_eq {value : ℚ} (positive : 0 < value) {exponent : Int}
    (lower : (2 : ℚ) ^ exponent ≤ value) (upper : value < (2 : ℚ) ^ (exponent + 1)) :
    Int.log 2 value = exponent := by
  have below := (Int.zpow_le_iff_le_log (b := 2) one_lt_two positive).mp (by exact_mod_cast lower)
  have above := (Int.lt_zpow_iff_log_lt (b := 2) one_lt_two positive).mp (by exact_mod_cast upper)
  omega

theorem two_pow_log2_le {value : Nat} (positive : 0 < value) :
    (2 : ℚ) ^ (value.log2 : Int) ≤ value ∧ (value : ℚ) < (2 : ℚ) ^ (value.log2 + 1 : Int) := by
  constructor
  · exact_mod_cast Nat.log2_self_le positive.ne'
  · exact_mod_cast Nat.lt_log2_self

/-- The lengths of two numbers tell the power of two of their quotient up to one. -/
theorem ratio_bounds {numerator denominator : Nat} (positive : 0 < numerator)
    (divisible : 0 < denominator) :
    (2 : ℚ) ^ ((numerator.log2 : Int) - denominator.log2 - 1) ≤ numerator / denominator ∧
      (numerator : ℚ) / denominator < (2 : ℚ) ^ ((numerator.log2 : Int) - denominator.log2 + 1) := by
  have size : (0 : ℚ) < denominator := by exact_mod_cast divisible
  obtain ⟨numeratorLower, numeratorUpper⟩ := two_pow_log2_le positive
  obtain ⟨denominatorLower, denominatorUpper⟩ := two_pow_log2_le divisible
  constructor
  · calc (2 : ℚ) ^ ((numerator.log2 : Int) - denominator.log2 - 1)
        = (2 : ℚ) ^ (numerator.log2 : Int) / (2 : ℚ) ^ (denominator.log2 + 1 : Int) := by
          rw [← zpow_sub₀ two_ne_zero]
          congr 1
          omega
      _ ≤ numerator / denominator := div_le_div₀ (by positivity) numeratorLower size
          denominatorUpper.le
  · calc (numerator : ℚ) / denominator
        < (2 : ℚ) ^ (numerator.log2 + 1 : Int) / (2 : ℚ) ^ (denominator.log2 : Int) :=
          div_lt_div₀ numeratorUpper denominatorLower (by positivity) (by positivity)
      _ = (2 : ℚ) ^ ((numerator.log2 : Int) - denominator.log2 + 1) := by
          rw [← zpow_sub₀ two_ne_zero]
          congr 1
          omega

/-- One comparison decides between the two powers that are left. -/
theorem lastBit_eq {numerator denominator : Nat} (positive : 0 < numerator)
    (divisible : 0 < denominator) :
    lastBit numerator denominator =
      max (-1074) (Int.log 2 ((numerator : ℚ) / denominator) - 52) := by
  have size : (0 : ℚ) < denominator := by exact_mod_cast divisible
  have ratio : (0 : ℚ) < numerator / denominator := div_pos (by exact_mod_cast positive) size
  obtain ⟨lower, upper⟩ := ratio_bounds positive divisible
  unfold lastBit
  dsimp only
  generalize (numerator.log2 : Int) - denominator.log2 = estimate at lower upper ⊢
  have reached : denominator * 2 ^ estimate.toNat ≤ numerator * 2 ^ (-estimate).toNat ↔
      (2 : ℚ) ^ estimate ≤ numerator / denominator := by
    rw [← pow_toNat_div_pow_toNat_neg, div_le_div_iff₀ (by positivity) size]
    norm_cast
    rw [Nat.mul_comm]
  by_cases whole : (2 : ℚ) ^ estimate ≤ numerator / denominator
  · rw [if_pos (reached.mpr whole), log_eq ratio whole upper]
  · rw [if_neg (mt reached.mp whole)]
    rw [not_le] at whole
    rw [log_eq ratio lower (by rwa [sub_add_cancel])]

theorem scaled_ratio (numerator denominator : Nat) (bit : Int) :
    ((numerator * 2 ^ (-bit).toNat : Nat) : ℚ) / (denominator * 2 ^ bit.toNat : Nat) =
      numerator / denominator / (2 : ℚ) ^ bit := by
  push_cast
  rw [← pow_toNat_div_pow_toNat_neg, mul_div_mul_comm, div_div_eq_mul_div, mul_div_assoc]

/-- A whole number of units of the last bit that is nearest to a value gives the nearest code. -/
theorem nearest_of_round {value : ℚ} (positive : 0 < value) {bit : Int} {steps : Nat}
    (kept : bit = max (-1074) (Int.log 2 value - 52))
    (close : |value / (2 : ℚ) ^ bit - steps| ≤ 1 / 2)
    (tie : |value / (2 : ℚ) ^ bit - steps| = 1 / 2 → steps % 2 = 0) :
    Nearest value ((bit + 1074).toNat * 2 ^ (52 : Nat) + steps) := by
  have unit : (0 : ℚ) < 2 ^ bit := by positivity
  have logLower : (2 : ℚ) ^ Int.log 2 value ≤ value := by
    exact_mod_cast Int.zpow_log_le_self (b := 2) one_lt_two positive
  have logUpper : value < (2 : ℚ) ^ (Int.log 2 value + 1) := by
    exact_mod_cast Int.lt_zpow_succ_log_self (b := 2) one_lt_two value
  obtain ⟨below, above⟩ := abs_le.mp close
  have within : bit = -1074 ∨ (2 : ℚ) ^ (bit + 52) ≤ value := by
    by_cases lowest : bit = -1074
    · exact .inl lowest
    · right
      rwa [show bit + 52 = Int.log 2 value by omega]
  have fits : steps ≤ 2 ^ (53 : Nat) := by
    have bound : value / (2 : ℚ) ^ bit < 2 ^ (53 : Int) := by
      rw [div_lt_iff₀ unit, ← zpow_add₀ two_ne_zero]
      exact logUpper.trans_le (zpow_le_zpow_right₀ one_le_two (by omega))
    have less : (steps : ℚ) < (2 ^ (53 : Nat) + 1 : Nat) := by
      norm_num at bound
      push_cast
      linarith
    exact Nat.lt_succ_iff.mp (by exact_mod_cast less)
  have normal : bit = -1074 ∨ 2 ^ (52 : Nat) ≤ steps := by
    refine within.imp_right fun reached => ?_
    have bound : (2 : ℚ) ^ (52 : Int) ≤ value / (2 : ℚ) ^ bit := by
      rwa [le_div_iff₀ unit, ← zpow_add₀ two_ne_zero, add_comm]
    have less : ((2 ^ (52 : Nat) : Nat) : ℚ) < (steps + 1 : Nat) := by
      norm_num at bound
      push_cast
      linarith
    exact Nat.lt_succ_iff.mp (by exact_mod_cast less)
  have distance : |value - steps * (2 : ℚ) ^ bit| = |value / (2 : ℚ) ^ bit - steps| * 2 ^ bit := by
    rw [← abs_of_pos unit, ← abs_mul, abs_of_pos unit, sub_mul, div_mul_cancel₀ _ unit.ne']
  refine nearest_of_steps (by omega) (by omega) fits normal within ?_ ?_
  · rw [distance]
    linarith [mul_le_mul_of_nonneg_right close unit.le]
  · rw [distance]
    intro half
    refine tie (mul_right_cancel₀ unit.ne' ?_)
    linarith

theorem nearestCode_spec (numerator : Nat) {denominator : Nat} (positive : 0 < denominator) :
    ∃ code, Nearest ((numerator : ℚ) / denominator) code ∧
      nearestCode numerator denominator = min infinityCode code := by
  unfold nearestCode
  by_cases zero : numerator = 0
  · have least := nearest_magnitude 0
    rw [magnitude_zero] at least
    exact ⟨0, by simpa [zero] using least, by simp [zero]⟩
  · have ratio : (0 : ℚ) < numerator / denominator := by positivity
    have kept := lastBit_eq (Nat.pos_of_ne_zero zero) positive
    have unit : 0 < denominator * 2 ^ (lastBit numerator denominator).toNat := by positivity
    have rounded := roundToEven_close (numerator * 2 ^ (-lastBit numerator denominator).toNat) unit
    rw [scaled_ratio] at rounded
    rw [if_neg zero]
    exact ⟨_, nearest_of_round ratio kept rounded.1 rounded.2, rfl⟩

end AccessRules.Binary64
