import AccessRules.Proofs.Number.NormalForm
import AccessRules.Proofs.Number.NumberText

namespace AccessRules

open NaturalPower

namespace Decimal

variable {value : Decimal}

theorem digits_head?_ne_zero (nonzero : value.significand ≠ 0) : value.digits.head? ≠ some '0' :=
  head?_toDigits_ne_zero nonzero

theorem digits_getLast?_ne_zero (canonical : value.Canonical) :
    value.digits.getLast? ≠ some '0' := by
  have last : value.significand % 10 ≠ 0 := canonical
  rw [digits, Nat.toDigits_eq_if (by norm_num)]
  split
  next small => simpa [Nat.digitChar_eq_zero, Nat.mod_eq_of_lt small] using last
  next => simpa [Nat.digitChar_eq_zero] using last

/-- The limits of the notation, told from the first digit and told from the value. -/
theorem leading_outside_iff (nonzero : value.significand ≠ 0) :
    ¬ (-6 ≤ value.leading ∧ value.leading ≤ 20) ↔
      value.toRat < (10 : ℚ) ^ (-6 : Int) ∨ (10 : ℚ) ^ (21 : Int) ≤ value.toRat := by
  obtain ⟨lower, upper⟩ := toRat_bounds nonzero
  have base : (1 : ℚ) < 10 := by norm_num
  constructor
  · intro outside
    by_cases small : value.leading < -6
    · exact .inl (upper.trans_le ((zpow_le_zpow_iff_right₀ base).mpr (by omega)))
    · exact .inr (le_trans ((zpow_le_zpow_iff_right₀ base).mpr (by omega)) lower)
  · rintro (small | large) ⟨least, greatest⟩
    · have above := (zpow_lt_zpow_iff_right₀ base).mp (lower.trans_lt small)
      omega
    · have below := (zpow_lt_zpow_iff_right₀ base).mp (large.trans_lt upper)
      omega

end Decimal

namespace Numeral

variable {value : Decimal}

/-- Inside the limits a numeral without an exponent is normal if its digits are. -/
theorem normal_of_plain (nonzero : value.significand ≠ 0)
    (within : -6 ≤ value.leading ∧ value.leading ≤ 20) {numeral : Numeral}
    (bare : numeral.exponent = none) (exact : numeral.decimal.toRat = value.toRat)
    (head : numeral.whole = ['0'] ∨ numeral.whole.head? ≠ some '0')
    (last : numeral.fraction.getLast? ≠ some '0') (length : numeral.whole.length ≤ 21) :
    numeral.Normal where
  whole_head := head
  fraction_last := last
  power_head power member := by simp [bare] at member
  exponent_isSome_iff := by
    rw [exact, ← Decimal.leading_outside_iff nonzero]
    simp [bare, within]
  whole_of_exponent present := by simp [bare] at present
  length_whole _ := length

theorem normal_belowOne {zeros : Nat} (nonzero : value.significand ≠ 0)
    (canonical : value.Canonical) (place : value.leading = -(zeros + 1))
    (within : -6 ≤ value.leading ∧ value.leading ≤ 20) : (belowOne value zeros).Normal := by
  refine normal_of_plain nonzero within rfl (toRat_belowOne place) (.inl rfl) ?_
    (by simp [belowOne])
  rw [belowOne, List.getLast?_append_of_ne_nil _ value.digits_ne_nil]
  exact Decimal.digits_getLast?_ne_zero canonical

theorem normal_filled {zeros : Nat} (nonzero : value.significand ≠ 0)
    (place : value.leading + 1 = value.digits.length + zeros)
    (within : -6 ≤ value.leading ∧ value.leading ≤ 20) :
    (filled nonzero zeros false).Normal := by
  refine normal_of_plain nonzero within rfl (toRat_filled nonzero _ place) (.inr ?_)
    (by simp [filled]) ?_
  · rw [filled, List.head?_append_of_ne_nil _ value.digits_ne_nil]
    exact Decimal.digits_head?_ne_zero nonzero
  · simp only [filled, List.length_append, List.length_replicate]
    omega

section Split

variable {count : Nat} {some : 0 < count} {exponent : Option Int}

theorem whole_split_head? (nonzero : value.significand ≠ 0) :
    (split nonzero count some exponent).whole.head? ≠ Option.some '0' := by
  rw [split, List.head?_take, if_neg some.ne']
  exact Decimal.digits_head?_ne_zero nonzero

theorem fraction_split_getLast? (nonzero : value.significand ≠ 0) (canonical : value.Canonical) :
    (split nonzero count some exponent).fraction.getLast? ≠ Option.some '0' := by
  rw [split, List.getLast?_drop]
  split
  · simp
  · exact Decimal.digits_getLast?_ne_zero canonical

end Split

theorem normal_split {count : Nat} (nonzero : value.significand ≠ 0)
    (canonical : value.Canonical) (some : 0 < count) (place : value.leading + 1 = count)
    (inside : count < value.digits.length)
    (within : -6 ≤ value.leading ∧ value.leading ≤ 20) :
    (split nonzero count some none).Normal := by
  have shifted : value.leading + 1 = (none : Option Int).getD 0 + count := by simpa using place
  have exact := toRat_split nonzero some shifted inside.le
  refine normal_of_plain nonzero within rfl exact (.inr (whole_split_head? nonzero))
    (fraction_split_getLast? nonzero canonical) ?_
  simp only [split, List.length_take]
  omega

theorem normal_scientific (nonzero : value.significand ≠ 0) (canonical : value.Canonical)
    (outside : ¬ (-6 ≤ value.leading ∧ value.leading ≤ 20)) :
    (split nonzero 1 Nat.one_pos (some value.leading)).Normal where
  whole_head := .inr (whole_split_head? nonzero)
  fraction_last := fraction_split_getLast? nonzero canonical
  power_head power member := by
    obtain rfl : value.leading = power := Option.some.inj member
    exact Decimal.head?_toDigits_ne_zero (by omega)
  exponent_isSome_iff := by
    rw [toRat_split nonzero Nat.one_pos rfl value.length_digits_pos,
      ← Decimal.leading_outside_iff nonzero]
    simp [split, outside]
  whole_of_exponent _ := by
    obtain ⟨first, rest, begins⟩ := List.exists_cons_of_ne_nil value.digits_ne_nil
    have starts := Decimal.digits_head?_ne_zero nonzero
    rw [begins] at starts
    exact ⟨first, fun zero => starts (congrArg some zero), by simp [split, begins]⟩
  length_whole none := nomatch none

end Numeral

namespace Literal

theorem write_eq_normal {value : Decimal} (nonzero : value.significand ≠ 0)
    (canonical : value.Canonical) :
    ∃ numeral : Numeral, numberLayout.write value = numeral.text ∧
      numeral.decimal.toRat = value.toRat ∧ numeral.Normal := by
  unfold Decimal.Layout.write
  split
  next within =>
    rcases Decimal.plain_cases numberLayout nonzero with ⟨zeros, place, written⟩ |
      ⟨zeros, place, written⟩ | ⟨count, some, place, inside, written⟩
    · exact ⟨_, written, Numeral.toRat_belowOne place,
        Numeral.normal_belowOne nonzero canonical place within⟩
    · exact ⟨_, written, Numeral.toRat_filled nonzero _ place,
        Numeral.normal_filled nonzero place within⟩
    · exact ⟨_, written, Numeral.toRat_split nonzero some (by simpa using place) (by omega),
        Numeral.normal_split nonzero canonical some place inside within⟩
  next outside =>
    exact ⟨_, Decimal.scientific_eq _ _,
      Numeral.toRat_split nonzero Nat.one_pos rfl value.length_digits_pos,
      Numeral.normal_scientific nonzero canonical outside⟩

/-- So many zeros. There is no negative number of them. -/
def zeros? (count : Int) : Option (List Char) :=
  if count < 0 then none else some (List.replicate count.toNat '0')

/-- The digits in front of a position and those behind it. It must lie within them. -/
def splitAt? (digits : List Char) (position : Int) : Option (List Char × List Char) :=
  if position < 0 ∨ digits.length < position then none
  else some (digits.take position.toNat, digits.drop position.toNat)

/-- The layout of digits by conditions that overlap and are tried in order, each in terms of
the place of the point among the digits. -/
def place? (digits : List Char) (leading : Int) : Option (List Char) :=
  let point := leading + 1
  if digits.length ≤ point ∧ point ≤ 21 then
    (zeros? (point - digits.length)).map fun zeros => digits ++ zeros
  else if 0 < point ∧ point ≤ 21 then
    (splitAt? digits point).map fun (whole, fraction) => whole ++ '.' :: fraction
  else if -6 < point ∧ point ≤ 0 then
    (zeros? (-point)).map fun zeros => '0' :: '.' :: (zeros ++ digits)
  else
    (splitAt? digits 1).map fun (first, rest) =>
      first ++ (Numeral.fractionText rest ++ Numeral.exponentText (some leading))

/-- No count is negative and no position lies outside the digits, whatever their number and
their place are. -/
theorem place?_eq {digits : List Char} (present : digits ≠ []) (leading : Int) :
    place? digits leading = some (
      if numberLayout.plainFrom ≤ leading ∧ leading ≤ numberLayout.plainTo then
        numberLayout.plain digits leading
      else Decimal.scientific digits leading) := by
  have positive : 0 < digits.length := List.length_pos_of_ne_nil present
  have limits : (numberLayout.plainFrom ≤ leading ∧ leading ≤ numberLayout.plainTo) ↔
      -6 ≤ leading ∧ leading ≤ 20 := Iff.rfl
  unfold place?
  dsimp only
  split
  next whole =>
    rw [if_pos (limits.mpr (by omega)), zeros?, if_neg (by omega),
      Decimal.plain_of_whole _ _ (by omega) (by omega)]
    simp [numberLayout]
  next =>
    split
    next mixed =>
      rw [if_pos (limits.mpr (by omega)), splitAt?, if_neg (by omega),
        Decimal.plain_of_mixed _ _ (by omega) (by omega)]
      rfl
    next =>
      split
      next small =>
        rw [if_pos (limits.mpr (by omega)), zeros?, if_neg (by omega),
          Decimal.plain_of_small _ _ (by omega), Int.neg_add]
        rfl
      next =>
        rw [if_neg (mt limits.mp (by omega)), splitAt?, if_neg (by omega), Decimal.scientific_eq]
        rfl

/-- A finite number other than zero is written as a normal numeral behind its sign. The numeral
denotes the decimal of its digits and is the only normal one that does. Wherever the point
falls, no count of zeros is negative and no split lies outside the digits. -/
theorem number_text_normal :
    (∀ number : Binary64, number.isFinite = true → number.isZero = false →
      ∃ numeral : Numeral, numeral.Normal ∧
        (text (.number number)).toList =
          (if number.negative then ['-'] else []) ++ numeral.text ∧
        Numeral.read? (text (.number number)).toList =
          some (number.negative, numeral.decimal) ∧
        numeral.decimal.toRat = (number.shortest numberLayout.tie).toRat ∧
        ∀ other : Numeral, other.Normal → other.decimal.toRat = numeral.decimal.toRat →
          other.text = numeral.text) ∧
    (∀ (digits : List Char) (leading : Int), digits ≠ [] →
      (place? digits leading).isSome = true) ∧
    ∀ value : Decimal, place? value.digits value.leading = some (numberLayout.write value) := by
  refine ⟨?_, ?_, ?_⟩
  · intro number finite nonzero
    obtain ⟨numeral, written, exact, normal⟩ := write_eq_normal
      (Binary64.significand_shortest_ne_zero finite nonzero numberLayout.tie)
      (Binary64.canonical_shortest finite nonzero numberLayout.tie)
    have shown : (text (.number number)).toList =
        (if number.negative then ['-'] else []) ++ numeral.text := by
      rw [text, String.toList_ofList, numberText_of_nonzero finite nonzero, written]
    refine ⟨numeral, normal, shown, ?_, exact, fun other otherNormal same => ?_⟩
    · rw [shown, Numeral.read?_text]
    · exact otherNormal.text_eq normal same
  · intro digits leading present
    rw [place?_eq present]
    rfl
  · intro value
    exact place?_eq value.digits_ne_nil value.leading

/-- The least magnitude there is, behind its sign, and digits that get an exponent. -/
theorem number_text_normal_least :
    (Binary64.ofBits 0x8000000000000001).isFinite = true ∧
      (Binary64.ofBits 0x8000000000000001).isZero = false ∧
      (∃ numeral : Numeral, numeral.Normal ∧
        (text (.number (.ofBits 0x8000000000000001))).toList = '-' :: numeral.text) ∧
      (place? ['1', '5'] (-7)).isSome = true ∧ place? ['1', '5'] (-7) = some "1.5e-7".toList := by
  have finite : (Binary64.ofBits 0x8000000000000001).isFinite = true := by decide
  have nonzero : (Binary64.ofBits 0x8000000000000001).isZero = false := by decide
  obtain ⟨numbers, placed, -⟩ := number_text_normal
  obtain ⟨numeral, normal, written, -⟩ := numbers _ finite nonzero
  exact ⟨finite, nonzero, ⟨numeral, normal, written⟩, placed _ _ (by decide), by decide⟩

end Literal

end AccessRules
