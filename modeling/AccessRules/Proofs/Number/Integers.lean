import AccessRules.Operand
import AccessRules.Proofs.Number.NumberText

namespace AccessRules

/-! Whole numbers among the operands.

Whole numbers up to `2 ^ 53` have codes of their own. With fewer digits than such a number has,
zeros at its end apart, there are only other multiples of ten, and these are nearer to other
codes. So nothing but those zeros is dropped, and the layout puts them back.
-/

open NaturalPower

theorem Decimal.toDigits_mul_pow {size : Nat} (nonzero : size ≠ 0) (zeros : Nat) :
    Nat.toDigits 10 (size * 10 ^ zeros) = Nat.toDigits 10 size ++ List.replicate zeros '0' := by
  induction zeros with
  | zero => simp
  | succ zeros ih =>
      have positive : 0 < size * 10 ^ zeros := by positivity
      rw [Nat.pow_succ, ← Nat.mul_assoc, Nat.toDigits_of_base_le (by norm_num) (by omega),
        Nat.mul_div_cancel _ (by norm_num), Nat.mul_mod_left, ih, List.replicate_succ',
        List.append_assoc]
      rfl

namespace Binary64

theorem magnitude_eq_ratio (code : Nat) :
    magnitude code = (numerator code : ℚ) / denominator code := by
  rw [magnitude, numerator, denominator, ← pow_toNat_div_pow_toNat_neg]
  push_cast
  rw [mul_div_assoc]

/-- Doubled often enough a small number takes all bits of a significand. -/
theorem exists_doublings {size : Nat} (positive : 0 < size) (small : size ≤ 2 ^ (53 : Nat)) :
    ∃ doublings, doublings ≤ 52 ∧ 2 ^ (52 : Nat) ≤ size * 2 ^ doublings ∧
      size * 2 ^ doublings ≤ 2 ^ (53 : Nat) := by
  have lower := Nat.log2_self_le positive.ne'
  have upper := Nat.lt_log2_self (n := size)
  by_cases large : 52 < size.log2
  · have reached := Nat.pow_le_pow_right two_pos large
    exact ⟨0, by omega, by omega, by omega⟩
  · have whole : 2 ^ size.log2 * 2 ^ (52 - size.log2) = 2 ^ (52 : Nat) := by
      rw [← Nat.pow_add]
      congr 1
      omega
    refine ⟨52 - size.log2, by omega, ?_, ?_⟩
    · rw [← whole]
      exact Nat.mul_le_mul_right _ lower
    · calc size * 2 ^ (52 - size.log2)
          ≤ 2 ^ (size.log2 + 1) * 2 ^ (52 - size.log2) := Nat.mul_le_mul_right _ upper.le
        _ = 2 ^ (53 : Nat) := by rw [Nat.pow_succ, Nat.mul_right_comm, whole]; rfl

theorem exists_code_of_le {size : Nat} (small : size ≤ 2 ^ (53 : Nat)) :
    ∃ code, magnitude code = size := by
  by_cases zero : size = 0
  · exact ⟨0, by rw [magnitude_zero, zero, Nat.cast_zero]⟩
  · obtain ⟨doublings, few, enough, fits⟩ := exists_doublings (Nat.pos_of_ne_zero zero) small
    have place : (((1074 - doublings) * 2 ^ (52 : Nat) + size * 2 ^ doublings : Nat) : Int) =
        (-(doublings : Int) + 1074) * 2 ^ (52 : Nat) + (size * 2 ^ doublings : Nat) := by
      push_cast [Nat.cast_sub (show doublings ≤ 1074 by omega)]
      ring
    refine ⟨_, (magnitude_of_code_eq place (by omega) fits (.inr enough)).trans ?_⟩
    rw [zpow_neg, zpow_natCast]
    push_cast
    field_simp

/-- Units are small as long as values are. -/
theorem unit_le_of_lt {code : Nat} (limit : Int) (lowest : -1074 ≤ limit)
    (small : magnitude code < (2 : ℚ) ^ (limit + 53)) : (2 : ℚ) ^ scale code ≤ 2 ^ limit := by
  refine zpow_le_zpow_right₀ one_le_two ?_
  by_contra! large
  have normal : 2 ^ (52 : Nat) ≤ significand code :=
    (scale_eq_or_significand_ge code).resolve_left (by omega)
  have steps : (2 : ℚ) ^ (52 : Int) ≤ significand code := by exact_mod_cast normal
  have bound : (2 : ℚ) ^ (52 : Int) * 2 ^ (limit + 1) ≤ magnitude code :=
    mul_le_mul steps (zpow_le_zpow_right₀ one_le_two (by omega)) (by positivity) (by positivity)
  rw [← zpow_add₀ two_ne_zero, show (52 : Int) + (limit + 1) = limit + 53 by ring] at bound
  linarith

section Whole

variable {code size : Nat}

theorem lt_infinityCode_of_le (exact : magnitude code = size) (small : size ≤ 2 ^ (53 : Nat)) :
    code < infinityCode := by
  rw [← magnitude_strictMono.lt_iff_lt, exact, magnitude_infinityCode]
  have bound : (size : ℚ) ≤ (2 : ℚ) ^ (53 : Int) := by exact_mod_cast small
  exact bound.trans_lt (zpow_lt_zpow_right₀ one_lt_two (by norm_num))

theorem le_magnitude_pred (exact : magnitude code = size) (small : size ≤ 2 ^ (53 : Nat))
    (positive : 0 < code) {other : Nat} (below : other < size) :
    (other : ℚ) ≤ magnitude (code - 1) := by
  have step := magnitude_succ (code - 1)
  rw [Nat.sub_add_cancel positive, exact] at step
  have order : magnitude (code - 1) < size := exact ▸ magnitude_strictMono (by omega)
  have bound : (size : ℚ) ≤ (2 : ℚ) ^ ((0 : Int) + 53) := by exact_mod_cast small
  have unit := unit_le_of_lt 0 (by norm_num) (order.trans_le bound)
  have gap : (other : ℚ) + 1 ≤ size := by exact_mod_cast below
  rw [zpow_zero] at unit
  linarith

/-- From `2 ^ 53` on there are steps of two, but no multiple of ten is just behind it. -/
theorem magnitude_succ_le (exact : magnitude code = size) (small : size ≤ 2 ^ (53 : Nat))
    {other : Nat} (tens : other % 10 = 0) (above : size < other) :
    magnitude (code + 1) ≤ other := by
  obtain ⟨limit, value, gap⟩ :
      ∃ limit : Nat, size < 2 ^ (limit + 53) ∧ size + 2 ^ limit ≤ other := by
    by_cases last : size = 2 ^ (53 : Nat)
    · exact ⟨1, by omega, by omega⟩
    · exact ⟨0, by omega, by omega⟩
  have bound : (size : ℚ) < (2 : ℚ) ^ ((limit : Int) + 53) := by exact_mod_cast value
  have unit := unit_le_of_lt limit (by omega) (exact ▸ bound)
  have apart : (size : ℚ) + 2 ^ limit ≤ other := by exact_mod_cast gap
  rw [magnitude_succ, exact]
  rw [zpow_natCast] at unit
  linarith

/-- Another multiple of ten is beyond one of the two codes beside that of a whole number. -/
theorem not_nearest_of_ten_dvd (exact : magnitude code = size) (small : size ≤ 2 ^ (53 : Nat))
    {other : Nat} (tens : other % 10 = 0) (different : other ≠ size) : ¬ Nearest other code := by
  intro nearest
  rcases Nat.lt_or_gt_of_ne different with below | above
  · have positive : 0 < code := by
      refine Nat.pos_of_ne_zero fun zero => ?_
      rw [zero, magnitude_zero] at exact
      have none : 0 = size := by exact_mod_cast exact
      omega
    have reached := nearest.le_of_le_magnitude (le_magnitude_pred exact small positive below)
    omega
  · have reached := nearest.le_of_magnitude_le (magnitude_succ_le exact small tens above)
    omega

theorem denominator_pos (code : Nat) : 0 < denominator code := Nat.two_pow_pos _

theorem numerator_eq (exact : magnitude code = size) :
    numerator code = size * denominator code := by
  have divisor : (denominator code : ℚ) ≠ 0 := by exact_mod_cast (denominator_pos code).ne'
  rw [magnitude_eq_ratio, div_eq_iff divisor] at exact
  exact_mod_cast exact

theorem decimalPoint_eq (exact : magnitude code = size) (nonzero : size ≠ 0) :
    decimalPoint code = (Nat.toDigits 10 size).length := by
  have scaled : numerator code * 10 ^ (400 : Nat) / denominator code = size * 10 ^ (400 : Nat) := by
    rw [numerator_eq exact, Nat.mul_right_comm, Nat.mul_div_cancel _ (denominator_pos code)]
  rw [decimalPoint, scaled, Decimal.toDigits_mul_pow nonzero, List.length_append,
    List.length_replicate]
  omega

/-- On a grid of powers of ten from one on the neighbours of a whole number are whole. -/
theorem gridNeighbours_whole (exact : magnitude code = size) {point : Int} {count zeros : Nat}
    (exponent : point - count = zeros) :
    GridNeighbours.of code point count =
      ⟨size / 10 ^ zeros, zeros, denominator code * (size % 10 ^ zeros),
        denominator code * 10 ^ zeros⟩ := by
  have swapped : size * denominator code = denominator code * size := Nat.mul_comm _ _
  simp only [GridNeighbours.of, exponent, numerator_eq exact, Int.toNat_natCast,
    Int.toNat_neg_natCast, Nat.pow_zero, Nat.mul_one, swapped,
    Nat.mul_div_mul_left _ _ (denominator_pos code), Nat.mul_mod_mul_left]

theorem toRat_strip_natCast (lower zeros : Nat) :
    (Decimal.strip lower zeros).toRat = (lower * 10 ^ zeros : Nat) := by
  rw [toRat_strip, zpow_natCast]
  push_cast
  rfl

theorem readsBack_of_nearest (finite : code < infinityCode) {value : Decimal}
    (nearest : Nearest value.toRat code) : readsBack code value = true := by
  obtain ⟨found, near, _, rounded⟩ := ofDecimal_spec false value
  rw [near.unique nearest] at rounded
  rw [readsBack, beq_iff_eq, rounded]
  omega

/-- A whole number that loses a digit other than zero does not read back. -/
theorem readsBack_strip_eq_false (exact : magnitude code = size)
    (small : size ≤ 2 ^ (53 : Nat)) {lower zeros : Nat} (tens : zeros ≠ 0)
    (lost : ¬ 10 ^ zeros ∣ size) : readsBack code (Decimal.strip lower zeros) = false := by
  rw [Bool.eq_false_iff]
  intro read
  have nearest := nearest_of_readsBack (lt_infinityCode_of_le exact small) read
  rw [toRat_strip_natCast] at nearest
  obtain ⟨fewer, rfl⟩ := Nat.exists_eq_succ_of_ne_zero tens
  refine not_nearest_of_ten_dvd exact small ?_ ?_ nearest
  · rw [Nat.pow_succ, ← Nat.mul_assoc, Nat.mul_mod_left]
  · rintro rfl
    exact lost (Nat.dvd_mul_left _ _)

theorem choose_eq_none (exact : magnitude code = size) (small : size ≤ 2 ^ (53 : Nat))
    {point : Int} {count zeros : Nat} (exponent : point - count = zeros) (tens : zeros ≠ 0)
    (lost : ¬ 10 ^ zeros ∣ size) (tie : Decimal.Tie) :
    (GridNeighbours.of code point count).choose tie code = none := by
  have unread : ∀ lower, readsBack code (Decimal.strip lower zeros) = false :=
    fun lower => readsBack_strip_eq_false exact small tens lost
  rw [gridNeighbours_whole exact exponent, GridNeighbours.choose]
  dsimp only
  split <;> simp [unread]

theorem choose_eq_some (exact : magnitude code = size) (small : size ≤ 2 ^ (53 : Nat))
    {point : Int} {count zeros : Nat} (exponent : point - count = zeros)
    (kept : 10 ^ zeros ∣ size) (tie : Decimal.Tie) :
    (GridNeighbours.of code point count).choose tie code =
      some (Decimal.strip (size / 10 ^ zeros) zeros) := by
  have read : readsBack code (Decimal.strip (size / 10 ^ zeros) zeros) = true := by
    refine readsBack_of_nearest (lt_infinityCode_of_le exact small) ?_
    rw [toRat_strip_natCast, Nat.div_mul_cancel kept, ← exact]
    exact nearest_magnitude code
  have unit : 0 < denominator code * 10 ^ zeros := by
    have positive := denominator_pos code
    positivity
  have rest : size % 10 ^ zeros = 0 := Nat.mod_eq_zero_of_dvd kept
  rw [gridNeighbours_whole exact exponent, GridNeighbours.choose]
  simp [GridNeighbours.prefersLower, rest, unit, read]

theorem not_dvd_of_canonical {significand zeros more : Nat} (canonical : significand % 10 ≠ 0)
    (above : zeros < more) : ¬ 10 ^ more ∣ significand * 10 ^ zeros := by
  obtain ⟨further, rfl⟩ := Nat.exists_eq_add_of_lt above
  intro divides
  have shifted : 10 ^ (zeros + further + 1) = 10 ^ (further + 1) * 10 ^ zeros := by
    rw [← Nat.pow_add]
    congr 1
    omega
  rw [shifted] at divides
  have tens : 10 ∣ significand :=
    (Nat.dvd_mul_left _ _).trans (Nat.dvd_of_mul_dvd_mul_right (by positivity) divides)
  exact canonical (Nat.mod_eq_zero_of_dvd tens)

/-- The shortest decimal of a whole number has its digits without the zeros at the end. -/
theorem shortestOfCode_whole {significand zeros : Nat} (exact : magnitude code = size)
    (small : size ≤ 2 ^ (53 : Nat)) (split : size = significand * 10 ^ zeros)
    (canonical : significand % 10 ≠ 0) (tie : Decimal.Tie) :
    shortestOfCode tie code = ⟨significand, zeros⟩ := by
  have nonzero : significand ≠ 0 := by
    rintro rfl
    exact canonical rfl
  have present : size ≠ 0 := by
    rw [split]
    positivity
  have point : decimalPoint code = (Nat.toDigits 10 significand).length + zeros := by
    rw [decimalPoint_eq exact present, split, Decimal.toDigits_mul_pow nonzero,
      List.length_append, List.length_replicate, Nat.cast_add]
  have few : (Nat.toDigits 10 size).length ≤ 16 :=
    (Nat.length_toDigits_le_iff (by norm_num) (by norm_num)).mpr (by omega)
  have digits := Nat.length_toDigits_pos (b := 10) (n := significand)
  rw [split, Decimal.toDigits_mul_pow nonzero, List.length_append, List.length_replicate] at few
  obtain ⟨index, last⟩ := Nat.exists_eq_add_of_lt digits
  have reached : ∀ index < 17, List.range 17 =
      List.range index ++ index :: List.range' (index + 1) (16 - index) := by decide
  have found : ((List.range 17).findSome? fun index =>
      (GridNeighbours.of code (decimalPoint code) (index + 1)).choose tie code) =
        some ⟨significand, zeros⟩ := by
    refine List.findSome?_eq_some_iff.mpr ⟨_, index, _, reached index (by omega), ?_, ?_⟩
    · have kept : 10 ^ zeros ∣ size := split ▸ Nat.dvd_mul_left _ _
      have place : decimalPoint code - (index + 1 : Nat) = zeros := by omega
      rw [choose_eq_some exact small place kept, split,
        Nat.mul_div_cancel _ (by positivity), Decimal.strip, if_neg nonzero, if_neg canonical]
    · intro earlier before
      rw [List.mem_range] at before
      have place : decimalPoint code - (earlier + 1 : Nat) = (zeros + index - earlier : Nat) := by
        omega
      have lost : ¬ 10 ^ (zeros + index - earlier) ∣ size := by
        rw [split]
        exact not_dvd_of_canonical canonical (by omega)
      exact choose_eq_none exact small place (by omega) lost tie
  rw [shortestOfCode]
  simp only [found, Option.getD_some]

end Whole

theorem magnitude_ofInt {value : Int} (within : value.natAbs ≤ 2 ^ (53 : Nat)) :
    magnitude (ofInt value).code = value.natAbs := by
  obtain ⟨code, exact⟩ := exists_code_of_le within
  obtain ⟨found, nearest, rounded⟩ := nearestCode_spec value.natAbs Nat.one_pos
  rw [Nat.cast_one, div_one, ← exact] at nearest
  have finite := lt_infinityCode_of_le exact within
  have same : (ofInt value).code = code := by
    change nearestCode value.natAbs 1 = code
    rw [rounded, nearest.unique (nearest_magnitude code)]
    omega
  rw [same, exact]

end Binary64

namespace Literal

open Binary64

variable {value : Int}

theorem write_whole {significand zeros : Nat} (nonzero : significand ≠ 0)
    (small : significand * 10 ^ zeros ≤ 2 ^ (53 : Nat)) :
    numberLayout.write ⟨significand, zeros⟩ = Nat.toDigits 10 (significand * 10 ^ zeros) := by
  have few : (Nat.toDigits 10 (significand * 10 ^ zeros)).length ≤ 16 :=
    (Nat.length_toDigits_le_iff (by norm_num) (by norm_num)).mpr (by omega)
  rw [Decimal.toDigits_mul_pow nonzero, List.length_append, List.length_replicate] at few
  have positive := Nat.length_toDigits_pos (b := 10) (n := significand)
  have digits : Decimal.digits ⟨significand, zeros⟩ = Nat.toDigits 10 significand := rfl
  have leading : Decimal.leading ⟨significand, zeros⟩ =
      zeros + (Nat.toDigits 10 significand).length - 1 := rfl
  have within : numberLayout.plainFrom ≤ Decimal.leading ⟨significand, zeros⟩ ∧
      Decimal.leading ⟨significand, zeros⟩ ≤ numberLayout.plainTo := by
    simp only [numberLayout]
    omega
  have filled : (Decimal.leading ⟨significand, zeros⟩ + 1 -
      (Nat.toDigits 10 significand).length).toNat = zeros := by omega
  have behind : (Decimal.digits ⟨significand, zeros⟩).length ≤
      Decimal.leading ⟨significand, zeros⟩ + 1 := by
    rw [digits]
    omega
  rw [Decimal.Layout.write, if_pos within, Decimal.plain_of_whole _ _ (by omega) behind, digits,
    filled, Decimal.toDigits_mul_pow nonzero]
  simp [numberLayout]

theorem numberText_ofInt (within : value.natAbs ≤ 2 ^ (53 : Nat)) :
    numberText (ofInt value) = (toString value).toList := by
  have exact := magnitude_ofInt within
  have finite : (ofInt value).isFinite = true :=
    decide_eq_true (lt_infinityCode_of_le exact within)
  rw [Numeral.toList_toString, Numeral.text_ofNat]
  by_cases zero : value = 0
  · subst zero
    rfl
  · have present : value.natAbs ≠ 0 := Int.natAbs_ne_zero.mpr zero
    have nonzero : (ofInt value).isZero = false := by
      refine decide_eq_false fun none => present ?_
      rw [none, magnitude_zero] at exact
      exact_mod_cast exact.symm
    obtain ⟨zeros, _, split⟩ := Decimal.strip_shift present 0
    have canonical := Decimal.strip_canonical present 0
    have kept : (Decimal.strip value.natAbs 0).significand ≠ 0 := by
      intro none
      rw [none] at split
      omega
    have shortest : (ofInt value).shortest numberLayout.tie =
        ⟨(Decimal.strip value.natAbs 0).significand, zeros⟩ :=
      shortestOfCode_whole exact within split canonical _
    have sign : (ofInt value).negative = decide (value < 0) := rfl
    rw [numberText_of_nonzero finite nonzero, shortest, write_whole kept (split ▸ within), ← split,
      sign]
    simp only [decide_eq_true_eq]

theorem text_operand_ofInt (within : value.natAbs ≤ 2 ^ (53 : Nat)) :
    (Term.number (.ofInt value)).element.text = toString value := by
  have written : Literal.text (.number (.ofInt value)) = toString value := by
    rw [text, numberText_ofInt within, String.ofList_toList]
  simpa [Term.number, Element.literal, Element.text, Element.flatten, Atom.write, Atom.text]
    using written

/-- A whole number of at most `2 ^ 53` in size is kept exactly, and as an operand it is written
as a minus sign, if it is negative, and its decimal digits. No operand of an integer type of up
to 32 bits is out of these bounds. -/
theorem integer_operands_plain :
    (∀ value : Int, value.natAbs ≤ 2 ^ (53 : Nat) →
      magnitude (ofInt value).code = value.natAbs ∧
      (Term.number (.ofInt value)).element.text = toString value ∧
      (Term.number (.ofInt value)).element.text.toList =
        (if value < 0 then ['-'] else []) ++ Nat.toDigits 10 value.natAbs) ∧
    (∀ value : Int32, (Term.number (.ofInt value.toInt)).element.text = toString value.toInt) ∧
    ∀ value : UInt32,
      (Term.number (.ofInt value.toNat)).element.text = toString (value.toNat : Int) := by
  refine ⟨?_, ?_, ?_⟩
  · intro value within
    have written := text_operand_ofInt within
    refine ⟨magnitude_ofInt within, written, ?_⟩
    rw [written, Numeral.toList_toString, Numeral.text_ofNat]
  · intro value
    have least := value.le_toInt
    have most := value.toInt_lt
    exact text_operand_ofInt (by omega)
  · intro value
    have most := value.toNat_lt
    exact text_operand_ofInt (by omega)

/-- The zeros of `-1200` stand behind the digits that are kept, and `2 ^ 53` has a neighbour
with as many digits that is read as the same number. -/
theorem integer_operands_plain_round :
    (-1200 : Int).natAbs ≤ 2 ^ (53 : Nat) ∧ (9007199254740992 : Int).natAbs ≤ 2 ^ (53 : Nat) ∧
      (Term.number (.ofInt (-1200))).element.text = "-1200" ∧
      (Term.number (.ofInt 9007199254740992)).element.text = "9007199254740992" := by
  have first : (-1200 : Int).natAbs ≤ 2 ^ (53 : Nat) := by decide
  have second : (9007199254740992 : Int).natAbs ≤ 2 ^ (53 : Nat) := by decide
  exact ⟨first, second, (integer_operands_plain.1 _ first).2.1,
    (integer_operands_plain.1 _ second).2.1⟩

end Literal

end AccessRules
