import AccessRules.Proofs.Number.Numeral

namespace AccessRules

open NaturalPower

namespace Numeral

section Digits

variable {digits : List Char}

theorem digit_bounds {char : Char} (digit : char.isDigit = true) :
    48 ≤ char.toNat ∧ char.toNat ≤ 57 := by
  simpa [Char.isDigit, UInt32.le_iff_toNat_le] using digit

/-- The first digit weighs as much as there are digits behind it. -/
theorem ofDigitChars_cons (first : Char) (rest : List Char) :
    Nat.ofDigitChars 10 (first :: rest) 0 =
      10 ^ rest.length * (first.toNat - 48) + Nat.ofDigitChars 10 rest 0 := by
  rw [Nat.ofDigitChars_cons, Nat.ofDigitChars_eq_ofDigitChars_zero, Nat.mul_zero, Nat.zero_add]
  rfl

theorem ofDigitChars_append (front back : List Char) :
    Nat.ofDigitChars 10 (front ++ back) 0 =
      10 ^ back.length * Nat.ofDigitChars 10 front 0 + Nat.ofDigitChars 10 back 0 := by
  rw [Nat.ofDigitChars_append, Nat.ofDigitChars_eq_ofDigitChars_zero]

theorem ofDigitChars_lt (all : ∀ char ∈ digits, char.isDigit = true) :
    Nat.ofDigitChars 10 digits 0 < 10 ^ digits.length := by
  induction digits with
  | nil => decide
  | cons first rest ih =>
      have bounds := digit_bounds (all first (by simp))
      have below := ih fun char member => all char (by simp [member])
      have weight : 10 ^ rest.length * (first.toNat - 48) ≤ 10 ^ rest.length * 9 :=
        Nat.mul_le_mul_left _ (by omega)
      rw [ofDigitChars_cons, List.length_cons, Nat.pow_succ]
      omega

theorem pow_le_ofDigitChars {first : Char} (digit : first.isDigit = true) (nonzero : first ≠ '0')
    (rest : List Char) : 10 ^ rest.length ≤ Nat.ofDigitChars 10 (first :: rest) 0 := by
  have bounds := digit_bounds digit
  have different : first.toNat ≠ 48 := fun same => nonzero (Char.toNat_inj.mp same)
  have weight : 10 ^ rest.length * 1 ≤ 10 ^ rest.length * (first.toNat - 48) :=
    Nat.mul_le_mul_left _ (by omega)
  rw [ofDigitChars_cons]
  omega

theorem eq_of_ofDigitChars_eq {others : List Char} (all : ∀ char ∈ digits, char.isDigit = true)
    (othersAll : ∀ char ∈ others, char.isDigit = true) (length : digits.length = others.length)
    (same : Nat.ofDigitChars 10 digits 0 = Nat.ofDigitChars 10 others 0) : digits = others := by
  induction digits generalizing others with
  | nil => exact (List.length_eq_zero_iff.mp length.symm).symm
  | cons first rest ih =>
      cases others with
      | nil => exact absurd length (Nat.succ_ne_zero _)
      | cons other more =>
          have sizes : rest.length = more.length := Nat.succ.inj length
          have restAll : ∀ char ∈ rest, char.isDigit = true :=
            fun char member => all char (by simp [member])
          have moreAll : ∀ char ∈ more, char.isDigit = true :=
            fun char member => othersAll char (by simp [member])
          rw [ofDigitChars_cons, ofDigitChars_cons, ← sizes] at same
          have below := ofDigitChars_lt restAll
          have moreBelow := ofDigitChars_lt moreAll
          rw [← sizes] at moreBelow
          have unit : 0 < 10 ^ rest.length := by positivity
          have values : first.toNat - 48 = other.toNat - 48 := by
            have divided := congrArg (· / 10 ^ rest.length) same
            simpa [Nat.mul_add_div unit, Nat.div_eq_of_lt below, Nat.div_eq_of_lt moreBelow]
              using divided
          have bounds := digit_bounds (all first (by simp))
          have otherBounds := digit_bounds (othersAll other (by simp))
          have head : first = other := Char.toNat_inj.mp (by omega)
          rw [head, ih restAll moreAll sizes (by rw [values] at same; omega)]

/-- A digit string without a zero in front is what its value is written as. -/
theorem toDigits_ofDigitChars (all : ∀ char ∈ digits, char.isDigit = true) (present : digits ≠ [])
    (starts : digits.head? = some '0' → digits = ['0']) :
    Nat.toDigits 10 (Nat.ofDigitChars 10 digits 0) = digits := by
  obtain ⟨first, rest, rfl⟩ := List.exists_cons_of_ne_nil present
  by_cases zero : first = '0'
  · rw [starts (congrArg Option.some zero)]
    rfl
  · have written : ∀ char ∈ Nat.toDigits 10 (Nat.ofDigitChars 10 (first :: rest) 0),
        char.isDigit = true :=
      fun char member => Nat.isDigit_of_mem_toDigits (by norm_num) (by norm_num) member
    have upper := (Nat.length_toDigits_le_iff (b := 10) (k := rest.length + 1) (by norm_num)
      (by omega)).mpr (ofDigitChars_lt all)
    have lower : ¬ (Nat.toDigits 10 (Nat.ofDigitChars 10 (first :: rest) 0)).length ≤
        rest.length := by
      intro short
      have positive := Nat.length_toDigits_pos (b := 10)
        (n := Nat.ofDigitChars 10 (first :: rest) 0)
      have below := (Nat.length_toDigits_le_iff (by norm_num) (by omega)).mp short
      have least := pow_le_ofDigitChars (all first (by simp)) zero rest
      omega
    refine eq_of_ofDigitChars_eq written all ?_ Nat.ofDigitChars_ten_toDigits
    rw [List.length_cons]
    omega

end Digits

/-- A numeral without a zero that could be left out. It has an exponent exactly where the
magnitude is below `1e-6` or at least `1e21`, and then one digit in front of the point. -/
structure Normal (numeral : Numeral) : Prop where
  whole_head : numeral.whole = ['0'] ∨ numeral.whole.head? ≠ some '0'
  fraction_last : numeral.fraction.getLast? ≠ some '0'
  power_head : ∀ power ∈ numeral.exponent, (Nat.toDigits 10 power.natAbs).head? ≠ some '0'
  exponent_isSome_iff : numeral.exponent.isSome = true ↔
    numeral.decimal.toRat < (10 : ℚ) ^ (-6 : Int) ∨ (10 : ℚ) ^ (21 : Int) ≤ numeral.decimal.toRat
  whole_of_exponent : numeral.exponent.isSome = true →
    ∃ digit, digit ≠ '0' ∧ numeral.whole = [digit]
  length_whole : numeral.exponent = none → numeral.whole.length ≤ 21

theorem whole_fraction_isDigit (numeral : Numeral) :
    ∀ char ∈ numeral.whole ++ numeral.fraction, char.isDigit = true := by
  intro char member
  rcases List.mem_append.mp member with whole | fraction
  · exact numeral.whole_isDigit char whole
  · exact numeral.fraction_isDigit char fraction

variable {left right : Numeral}

/-- The digit in front of the point stands at the power of ten that the exponent tells. -/
theorem leading_decimal_of_single {numeral : Numeral} {digit : Char} (nonzero : digit ≠ '0')
    (single : numeral.whole = [digit]) :
    numeral.decimal.significand ≠ 0 ∧ numeral.decimal.leading = numeral.exponent.getD 0 := by
  have all := numeral.whole_fraction_isDigit
  rw [single] at all
  have starts : ([digit] ++ numeral.fraction).head? = some '0' →
      [digit] ++ numeral.fraction = ['0'] :=
    fun head => absurd (Option.some.inj head) nonzero
  have digits : numeral.decimal.digits = digit :: numeral.fraction := by
    rw [Decimal.digits, decimal, single]
    exact toDigits_ofDigitChars all (by simp) starts
  constructor
  · have least := pow_le_ofDigitChars (all digit (by simp)) nonzero numeral.fraction
    have unit : 0 < 10 ^ numeral.fraction.length := by positivity
    rw [decimal, single]
    exact (Nat.lt_of_lt_of_le unit least).ne'
  · rw [Decimal.leading, digits, decimal, List.length_cons]
    push_cast
    ring

theorem Normal.exponent_eq (first : left.Normal) (second : right.Normal)
    (same : left.decimal.toRat = right.decimal.toRat) : left.exponent = right.exponent := by
  have together : left.exponent.isSome = true ↔ right.exponent.isSome = true := by
    rw [first.exponent_isSome_iff, second.exponent_isSome_iff, same]
  cases one : left.exponent with
  | none =>
      cases other : right.exponent with
      | none => rfl
      | some power => simp [one, other] at together
  | some power =>
      cases other : right.exponent with
      | none => simp [one, other] at together
      | some otherPower =>
          obtain ⟨digit, nonzero, single⟩ := first.whole_of_exponent (by simp [one])
          obtain ⟨otherDigit, otherNonzero, otherSingle⟩ :=
            second.whole_of_exponent (by simp [other])
          obtain ⟨positive, leading⟩ := leading_decimal_of_single nonzero single
          obtain ⟨otherPositive, otherLeading⟩ := leading_decimal_of_single otherNonzero otherSingle
          have bounds := Decimal.toRat_bounds positive
          have otherBounds := Decimal.toRat_bounds otherPositive
          rw [leading, one, same] at bounds
          rw [otherLeading, other] at otherBounds
          have below : power < otherPower + 1 :=
            (zpow_lt_zpow_iff_right₀ (by norm_num : (1 : ℚ) < 10)).mp
              (bounds.1.trans_lt otherBounds.2)
          have above : otherPower < power + 1 :=
            (zpow_lt_zpow_iff_right₀ (by norm_num : (1 : ℚ) < 10)).mp
              (otherBounds.1.trans_lt bounds.2)
          exact congrArg Option.some (by omega)

/-- Digits that one of two equal values has more behind the point, it has more altogether. -/
theorem significand_eq_of_length_eq (more : Nat) (exponent : left.exponent = right.exponent)
    (same : left.decimal.toRat = right.decimal.toRat)
    (lengths : right.fraction.length = left.fraction.length + more) :
    right.decimal.significand = left.decimal.significand * 10 ^ more := by
  have shifted : left.decimal.exponent = right.decimal.exponent + more := by
    simp only [decimal, exponent, lengths]
    push_cast
    ring
  have unit : (10 : ℚ) ^ right.decimal.exponent ≠ 0 := by positivity
  rw [Decimal.toRat, Decimal.toRat, shifted, zpow_add₀ (by norm_num), zpow_natCast] at same
  have whole : (right.decimal.significand : ℚ) =
      left.decimal.significand * (10 : ℚ) ^ more := by
    apply mul_right_cancel₀ unit
    rw [← same]
    ring
  exact_mod_cast whole

theorem significand_mod_ten {numeral : Numeral} {front : List Char} {last : Char}
    (split : numeral.fraction = front ++ [last]) :
    numeral.decimal.significand % 10 = last.toNat - 48 := by
  have digit := digit_bounds (numeral.fraction_isDigit last (by simp [split]))
  rw [decimal, split, ← List.append_assoc, ofDigitChars_append, ofDigitChars_cons]
  simp
  omega

/-- Further digits behind the point of an equal value would end in a zero. -/
theorem Normal.length_fraction_le (second : right.Normal)
    (exponent : left.exponent = right.exponent)
    (same : left.decimal.toRat = right.decimal.toRat) :
    right.fraction.length ≤ left.fraction.length := by
  by_contra! longer
  obtain ⟨more, lengths⟩ := Nat.exists_eq_add_of_lt longer
  have scaled := significand_eq_of_length_eq (more + 1) exponent same lengths
  have present : right.fraction ≠ [] := List.ne_nil_of_length_pos (by omega)
  obtain ⟨front, last, split⟩ := (List.eq_nil_or_concat' right.fraction).resolve_left present
  have tail := significand_mod_ten split
  have divisible : right.decimal.significand % 10 = 0 := by
    rw [scaled, Nat.pow_succ, ← Nat.mul_assoc, Nat.mul_mod_left]
  have digit := digit_bounds (right.fraction_isDigit last (by simp [split]))
  have zero : last = '0' := Char.toNat_inj.mp (by change last.toNat = 48; omega)
  exact second.fraction_last (by simp [split, zero])

theorem eq_of_significand_eq (lengths : left.fraction.length = right.fraction.length)
    (same : left.decimal.significand = right.decimal.significand) :
    left.whole = right.whole ∧ left.fraction = right.fraction := by
  have unit : 0 < 10 ^ right.fraction.length := by positivity
  have below := ofDigitChars_lt left.fraction_isDigit
  have otherBelow := ofDigitChars_lt right.fraction_isDigit
  simp only [decimal] at same
  rw [ofDigitChars_append, ofDigitChars_append, lengths] at same
  rw [lengths] at below
  have wholes : Nat.ofDigitChars 10 left.whole 0 = Nat.ofDigitChars 10 right.whole 0 := by
    have divided := congrArg (· / 10 ^ right.fraction.length) same
    simpa [Nat.mul_add_div unit, Nat.div_eq_of_lt below, Nat.div_eq_of_lt otherBelow] using divided
  have fractions : Nat.ofDigitChars 10 left.fraction 0 = Nat.ofDigitChars 10 right.fraction 0 := by
    rw [wholes] at same
    omega
  constructor
  · rw [← toDigits_ofDigitChars left.whole_isDigit left.whole_ne_nil left.whole_head, wholes,
      toDigits_ofDigitChars right.whole_isDigit right.whole_ne_nil right.whole_head]
  · exact eq_of_ofDigitChars_eq left.fraction_isDigit right.fraction_isDigit lengths fractions

/-- A value has one normal numeral at most. -/
theorem Normal.text_eq (first : left.Normal) (second : right.Normal)
    (same : left.decimal.toRat = right.decimal.toRat) : left.text = right.text := by
  have exponent := first.exponent_eq second same
  have lengths : left.fraction.length = right.fraction.length :=
    le_antisymm (first.length_fraction_le exponent.symm same.symm)
      (second.length_fraction_le exponent same)
  have significands : right.decimal.significand = left.decimal.significand := by
    simpa using significand_eq_of_length_eq 0 exponent same lengths.symm
  obtain ⟨whole, fraction⟩ := eq_of_significand_eq lengths significands.symm
  rw [text, text, whole, fraction, exponent]

end Numeral

end AccessRules
