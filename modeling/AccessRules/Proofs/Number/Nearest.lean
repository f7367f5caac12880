import AccessRules.Number.Binary64
import Mathlib.Algebra.Order.Field.Power
import Mathlib.Algebra.Order.Round
import Mathlib.Data.Int.Log
import Mathlib.Data.Rat.Floor
import Mathlib.Tactic.Linarith
import Mathlib.Tactic.Positivity

namespace AccessRules.Binary64

/-! Codes and the values they stand for.

Where codes follow one another, so do their values, each by one unit of its own scale. A
code is therefore nearest to a value as soon as it is nearer than its two neighbours.
-/

open NaturalPower

/-- The value of a code. Past infinity it goes on as if exponents had no end. -/
def magnitude (code : Nat) : ℚ := significand code * (2 : ℚ) ^ scale code

theorem scale_ge (code : Nat) : -1074 ≤ scale code := by
  unfold scale
  split <;> omega

theorem significand_lt (code : Nat) : significand code < 2 ^ (53 : Nat) := by
  unfold significand
  split <;> omega

theorem scale_eq_or_significand_ge (code : Nat) :
    scale code = -1074 ∨ 2 ^ (52 : Nat) ≤ significand code := by
  unfold scale significand
  split <;> omega

theorem code_eq (code : Nat) :
    (code : Int) = (scale code + 1074) * 2 ^ (52 : Nat) + significand code := by
  unfold scale significand
  split <;> omega

/-- Every code that is so many steps above the first code of a scale has their value, the
first code of the next scale included. -/
theorem magnitude_of_code_eq {code steps : Nat} {bit : Int}
    (place : (code : Int) = (bit + 1074) * 2 ^ (52 : Nat) + steps) (lowest : -1074 ≤ bit)
    (fits : steps ≤ 2 ^ (53 : Nat)) (normal : bit = -1074 ∨ 2 ^ (52 : Nat) ≤ steps) :
    magnitude code = steps * (2 : ℚ) ^ bit := by
  unfold magnitude
  by_cases carried : steps = 2 ^ (53 : Nat)
  · have next : scale code = bit + 1 := by
      unfold scale
      split <;> omega
    have least : significand code = 2 ^ (52 : Nat) := by
      unfold significand
      split <;> omega
    rw [next, least, carried, zpow_add_one₀ (by norm_num)]
    norm_num
    ring
  · have same : scale code = bit := by
      unfold scale
      split <;> omega
    have whole : significand code = steps := by
      unfold significand
      split <;> omega
    rw [same, whole]

theorem magnitude_succ (code : Nat) :
    magnitude (code + 1) = magnitude code + (2 : ℚ) ^ scale code := by
  have place := code_eq code
  have fits := significand_lt code
  have normal := scale_eq_or_significand_ge code
  have next : magnitude (code + 1) = (significand code + 1 : Nat) * (2 : ℚ) ^ scale code :=
    magnitude_of_code_eq (by omega) (scale_ge code) (by omega) (by omega)
  rw [next, magnitude]
  push_cast
  ring

theorem magnitude_strictMono : StrictMono magnitude := by
  refine strictMono_nat_of_lt_succ fun code => ?_
  have step : (0 : ℚ) < 2 ^ scale code := by positivity
  rw [magnitude_succ]
  linarith

theorem magnitude_zero : magnitude 0 = 0 := by
  simp [magnitude, significand]

/-- No code is nearer to the value, and another one that is as near leaves the even one. -/
structure Nearest (value : ℚ) (code : Nat) : Prop where
  closest : ∀ other, |value - magnitude code| ≤ |value - magnitude other|
  even : ∀ other, other ≠ code → |value - magnitude other| = |value - magnitude code| →
    code % 2 = 0

/-- Of two nearest codes the upper one would follow the lower one, and both be even. -/
theorem Nearest.le {value : ℚ} {left right : Nat} (first : Nearest value left)
    (second : Nearest value right) : right ≤ left := by
  by_contra! below
  have same : |value - magnitude left| = |value - magnitude right| :=
    le_antisymm (first.closest right) (second.closest left)
  have ordered : magnitude left < magnitude right := magnitude_strictMono below
  have middle : value - magnitude left = magnitude right - value := by
    rcases abs_eq_abs.mp same with equal | opposite
    · linarith
    · linarith
  have lower := first.even right below.ne' same.symm
  have upper := second.even left below.ne same
  have apart : left + 1 < right := by omega
  have past : magnitude left < magnitude (left + 1) := magnitude_strictMono (Nat.lt_succ_self left)
  have short : magnitude (left + 1) < magnitude right := magnitude_strictMono apart
  have nearer : |value - magnitude (left + 1)| < |value - magnitude left| := by
    rw [abs_of_nonneg (by linarith : 0 ≤ value - magnitude left), abs_lt]
    constructor <;> linarith
  exact absurd (first.closest (left + 1)) (not_le.mpr nearer)

theorem Nearest.unique {value : ℚ} {left right : Nat} (first : Nearest value left)
    (second : Nearest value right) : left = right :=
  le_antisymm (second.le first) (first.le second)

theorem nearest_magnitude (code : Nat) : Nearest (magnitude code) code := by
  constructor
  · intro other
    rw [sub_self, abs_zero]
    exact abs_nonneg _
  · intro other different same
    rw [sub_self, abs_zero, abs_eq_zero, sub_eq_zero] at same
    exact absurd (magnitude_strictMono.injective same).symm different

section Steps

variable {value : ℚ} {code steps : Nat} {bit : Int}

/-- The step above a code is no shorter than its unit. -/
theorem half_unit_le_of_lt (place : (code : Int) = (bit + 1074) * 2 ^ (52 : Nat) + steps)
    (normal : bit = -1074 ∨ 2 ^ (52 : Nat) ≤ steps)
    (close : value - magnitude code ≤ (2 : ℚ) ^ bit / 2) {other : Nat} (above : code < other) :
    (2 : ℚ) ^ bit / 2 ≤ magnitude other - value := by
  have bound : magnitude (code + 1) ≤ magnitude other := magnitude_strictMono.monotone above
  have longer : (2 : ℚ) ^ bit ≤ 2 ^ scale code := by
    have equal := code_eq code
    have fewer := significand_lt code
    have lowestScale := scale_ge code
    exact zpow_le_zpow_right₀ (by norm_num) (by omega)
  rw [magnitude_succ] at bound
  linarith

/-- The step below the first code of a scale is half a unit. Values do not lie there, if they
are no less than the power of two that starts the scale. -/
theorem half_unit_le_of_gt (place : (code : Int) = (bit + 1074) * 2 ^ (52 : Nat) + steps)
    (normal : bit = -1074 ∨ 2 ^ (52 : Nat) ≤ steps)
    (here : magnitude code = steps * (2 : ℚ) ^ bit)
    (within : bit = -1074 ∨ (2 : ℚ) ^ (bit + 52) ≤ value)
    (close : magnitude code - value ≤ (2 : ℚ) ^ bit / 2) {other : Nat} (below : other < code) :
    (2 : ℚ) ^ bit / 2 ≤ value - magnitude other := by
  have unit : (0 : ℚ) < 2 ^ bit := by positivity
  have bound : magnitude other ≤ magnitude (code - 1) := magnitude_strictMono.monotone (by omega)
  have step : magnitude code = magnitude (code - 1) + (2 : ℚ) ^ scale (code - 1) := by
    rw [← magnitude_succ, Nat.sub_add_cancel (by omega)]
  refine le_trans ?_ (sub_le_sub_left bound value)
  have before := code_eq (code - 1)
  have fewer := significand_lt (code - 1)
  have lowestBefore := scale_ge (code - 1)
  by_cases regular : bit ≤ scale (code - 1)
  · have longer : (2 : ℚ) ^ bit ≤ 2 ^ scale (code - 1) :=
      zpow_le_zpow_right₀ (by norm_num) regular
    linarith
  · have first : steps = 2 ^ (52 : Nat) := by omega
    have half : scale (code - 1) = bit - 1 := by
      have normalBefore := scale_eq_or_significand_ge (code - 1)
      omega
    have least : magnitude code ≤ value := by
      rcases within with lowestBit | reached
      · omega
      · rw [zpow_add₀ (by norm_num)] at reached
        rw [here, first]
        push_cast
        linarith
    rw [half, zpow_sub_one₀ (by norm_num)] at step
    linarith

/-- A code is nearest if its value is at most half a unit away, and even where it is just
half a unit away. -/
theorem nearest_of_steps
    (place : (code : Int) = (bit + 1074) * 2 ^ (52 : Nat) + steps) (lowest : -1074 ≤ bit)
    (fits : steps ≤ 2 ^ (53 : Nat)) (normal : bit = -1074 ∨ 2 ^ (52 : Nat) ≤ steps)
    (within : bit = -1074 ∨ (2 : ℚ) ^ (bit + 52) ≤ value)
    (close : |value - steps * (2 : ℚ) ^ bit| ≤ (2 : ℚ) ^ bit / 2)
    (tie : |value - steps * (2 : ℚ) ^ bit| = (2 : ℚ) ^ bit / 2 → steps % 2 = 0) :
    Nearest value code := by
  have here : magnitude code = steps * (2 : ℚ) ^ bit :=
    magnitude_of_code_eq place lowest fits normal
  rw [← here] at close tie
  obtain ⟨lower, upper⟩ := abs_le.mp close
  have away : ∀ other, other ≠ code → (2 : ℚ) ^ bit / 2 ≤ |value - magnitude other| := by
    intro other different
    rcases lt_or_gt_of_ne different with below | above
    · have far := half_unit_le_of_gt place normal here within (by linarith) below
      exact far.trans (le_abs_self _)
    · have far := half_unit_le_of_lt place normal upper above
      rw [abs_sub_comm]
      exact far.trans (le_abs_self _)
  constructor
  · intro other
    by_cases same : other = code
    · rw [same]
    · exact close.trans (away other same)
  · intro other different same
    have half : |value - magnitude code| = (2 : ℚ) ^ bit / 2 :=
      le_antisymm close (same ▸ away other different)
    have even := tie half
    omega

end Steps

end AccessRules.Binary64
