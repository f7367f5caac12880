import AccessRules.Literal
import AccessRules.Proofs.Number.Numeral

namespace AccessRules

/-! The text of numbers in the rule language, read back.

The reader below knows decimal numerals only, neither the layout nor its limits. What it
finds in the text of a number is the exact decimal that the number was written from.
-/

namespace Numeral

/-- The digits behind a point, and what follows them. -/
def readFraction? : List Char → Option (List Char × List Char)
  | '.' :: rest =>
      if (rest.takeWhile Char.isDigit).isEmpty then none
      else some (rest.takeWhile Char.isDigit, rest.dropWhile Char.isDigit)
  | text => some ([], text)

/-- The power of ten at the end of a numeral, zero if there is none. -/
def readPower? : List Char → Option Int
  | [] => some 0
  | 'e' :: sign :: digits =>
      if digits.isEmpty || !digits.all Char.isDigit then none
      else if sign = '+' then some (Nat.ofDigitChars 10 digits 0)
      else if sign = '-' then some (-(Nat.ofDigitChars 10 digits 0 : Nat))
      else none
  | _ => none

def readUnsigned? (text : List Char) : Option Decimal :=
  let whole := text.takeWhile Char.isDigit
  if whole.isEmpty then none
  else
    match readFraction? (text.dropWhile Char.isDigit) with
    | none => none
    | some (fraction, rest) =>
        (readPower? rest).map fun power =>
          ⟨Nat.ofDigitChars 10 (whole ++ fraction) 0, power - fraction.length⟩

/-- Whether a minus sign stands in front, and the value behind it. -/
def read? : List Char → Option (Bool × Decimal)
  | '-' :: rest => (readUnsigned? rest).map (true, ·)
  | text => (readUnsigned? text).map (false, ·)

theorem readPower?_exponentText (exponent : Option Int) :
    readPower? (exponentText exponent) = some (exponent.getD 0) := by
  cases exponent with
  | none => rfl
  | some power =>
      have digits : (Nat.toDigits 10 power.natAbs).all Char.isDigit = true :=
        List.all_eq_true.mpr fun _ member =>
          Nat.isDigit_of_mem_toDigits (by norm_num) (by norm_num) member
      have size : Nat.ofDigitChars 10 (Nat.toDigits 10 power.natAbs) 0 = power.natAbs :=
        Nat.ofDigitChars_ten_toDigits
      simp only [exponentText, readPower?, List.isEmpty_eq_false_iff.mpr Nat.toDigits_ne_nil,
        digits, size, Option.getD_some]
      by_cases negative : power < 0
      · simp [negative, abs_of_neg negative]
      · simp [negative, abs_of_nonneg (not_lt.mp negative)]

theorem readFraction?_fractionText {fraction : List Char}
    (digits : ∀ char ∈ fraction, char.isDigit = true) (exponent : Option Int) :
    readFraction? (fractionText fraction ++ exponentText exponent) =
      some (fraction, exponentText exponent) := by
  have stops : StopsDigits (exponentText exponent) := by
    simpa using stopsDigits_exponentText exponent stopsDigits_nil
  by_cases pointless : fraction = []
  · subst pointless
    cases exponent <;> rfl
  · rw [fractionText_of_ne_nil pointless, List.cons_append, readFraction?,
      takeWhile_isDigit digits stops, dropWhile_isDigit digits stops]
    simp [pointless]

theorem readUnsigned?_text (numeral : Numeral) :
    readUnsigned? numeral.text = some numeral.decimal := by
  have stops : StopsDigits (fractionText numeral.fraction ++ exponentText numeral.exponent) := by
    simpa using stopsDigits_fractionText numeral.fraction
      (stopsDigits_exponentText numeral.exponent stopsDigits_nil)
  rw [readUnsigned?, text, takeWhile_isDigit numeral.whole_isDigit stops,
    dropWhile_isDigit numeral.whole_isDigit stops,
    readFraction?_fractionText numeral.fraction_isDigit]
  simp [numeral.whole_ne_nil, readPower?_exponentText, decimal]

theorem read?_text (negative : Bool) (numeral : Numeral) :
    read? ((if negative then ['-'] else []) ++ numeral.text) = some (negative, numeral.decimal) := by
  cases negative with
  | true => simp [read?, readUnsigned?_text]
  | false =>
      -- A digit starts the text, so no sign is taken from it.
      obtain ⟨first, rest, begins⟩ := List.exists_cons_of_ne_nil numeral.whole_ne_nil
      have digit : first.isDigit = true := numeral.whole_isDigit first (by simp [begins])
      have unsigned : first ≠ '-' := by
        rintro rfl
        contradiction
      have read := numeral.readUnsigned?_text
      rw [text, begins, List.cons_append] at read ⊢
      simp only [Bool.false_eq_true, if_false, List.nil_append]
      rw [read?, read]
      · rfl
      · rintro more ⟨rfl, -⟩
        contradiction

example : read? "-2.5e+22".toList = some (true, ⟨25, 21⟩) := by decide

end Numeral

namespace Binary64

theorem same_of_same {number left right : Binary64} (first : number.same left = true)
    (second : number.same right = true) : left.same right = true := by
  simp only [same, isNaN, isZero, Bool.and_eq_true, Bool.not_eq_true', Bool.or_eq_true,
    decide_eq_false_iff_not, decide_eq_true_eq, beq_iff_eq] at first second ⊢
  grind

theorem zero_same (negative : Bool) {number : Binary64} (none : number.isZero = true) :
    (zero negative).same number = true := by
  have code : number.code = 0 := of_decide_eq_true none
  simp [same, zero, isNaN, isZero, code]

theorem same_self {number : Binary64} (finite : number.isFinite = true) :
    number.same number = true := by
  simp only [isFinite, decide_eq_true_eq] at finite
  simp [same, isNaN]
  omega

end Binary64

namespace Literal

open Binary64

variable {number : Binary64}

theorem numberText_of_nonzero (finite : number.isFinite = true)
    (nonzero : number.isZero = false) :
    numberText number = (if number.negative then ['-'] else []) ++
      numberLayout.write (number.shortest numberLayout.tie) := by
  have below : number.code < infinityCode := of_decide_eq_true finite
  have real : number.isNaN = false := decide_eq_false (by omega)
  have bounded : number.isInfinite = false := decide_eq_false (by omega)
  simp [numberText, real, bounded, nonzero]

theorem numberText_of_zero (zero : number.isZero = true) : numberText number = ['0'] := by
  have none : number.code = 0 := of_decide_eq_true zero
  have real : number.isNaN = false := decide_eq_false (by simp [none, infinityCode])
  have bounded : number.isInfinite = false := decide_eq_false (by simp [none, infinityCode])
  simp [numberText, real, bounded, zero]

theorem numberText_of_isNaN (real : number.isNaN = true) : numberText number = "NaN".toList := by
  simp [numberText, real]

theorem numberText_of_isInfinite (infinite : number.isInfinite = true) :
    numberText number =
      (if number.negative then "-Infinity" else "Infinity").toList := by
  have code : number.code = infinityCode := of_decide_eq_true infinite
  have real : number.isNaN = false := decide_eq_false (by omega)
  simp [numberText, real, infinite]

theorem not_finite_cases (infinite : number.isFinite = false) :
    number.isNaN = true ∨ number.isInfinite = true := by
  have above : ¬ number.code < infinityCode := of_decide_eq_false infinite
  simp only [isNaN, isInfinite, decide_eq_true_eq]
  omega

theorem read?_numberText_of_nonzero (finite : number.isFinite = true)
    (nonzero : number.isZero = false) :
    ∃ value, Numeral.read? (numberText number) = some (number.negative, value) ∧
      value.toRat = (number.shortest numberLayout.tie).toRat := by
  obtain ⟨numeral, written, exact, -⟩ := Decimal.write_eq_text numberLayout
    (significand_shortest_ne_zero finite nonzero numberLayout.tie)
  refine ⟨numeral.decimal, ?_, exact⟩
  rw [numberText_of_nonzero finite nonzero, written, Numeral.read?_text]

theorem read?_numberText (finite : number.isFinite = true) :
    ∃ negative value, Numeral.read? (numberText number) = some (negative, value) ∧
      (ofDecimal negative value).same number = true := by
  by_cases zero : number.isZero = true
  · refine ⟨false, ⟨0, 0⟩, ?_, ?_⟩
    · rw [numberText_of_zero zero]
      rfl
    · exact zero_same false zero
  · obtain ⟨value, read, exact⟩ := read?_numberText_of_nonzero finite (eq_false_of_ne_true zero)
    refine ⟨number.negative, value, read, ?_⟩
    rw [ofDecimal_congr _ exact, ofDecimal_shortest finite]
    exact same_self finite

theorem read?_numberText_of_not_finite (infinite : number.isFinite = false) :
    Numeral.read? (numberText number) = none := by
  rcases not_finite_cases infinite with real | word
  · rw [numberText_of_isNaN real]
    rfl
  · rw [numberText_of_isInfinite word]
    cases number.negative <;> rfl

section Pair

variable {left right : Binary64}

theorem numberText_eq_of_same (same : left.same right = true) :
    numberText left = numberText right := by
  simp only [Binary64.same, Bool.and_eq_true, Bool.or_eq_true, beq_iff_eq] at same
  obtain ⟨⟨-, code⟩, sign | zero⟩ := same
  · rw [Binary64.ext sign code]
  · have other : right.isZero = true := by
      rw [isZero, ← code]
      exact zero
    rw [numberText_of_zero zero, numberText_of_zero other]

/-- Two words for what is not finite are the same only for two NaNs or for infinities
of one sign. -/
theorem same_of_words_eq (leftInfinite : left.isFinite = false)
    (rightInfinite : right.isFinite = false) (equal : numberText left = numberText right) :
    left.same right = true ∨ left.isNaN = true ∧ right.isNaN = true := by
  rcases not_finite_cases leftInfinite with leftNaN | leftWord <;>
    rcases not_finite_cases rightInfinite with rightNaN | rightWord
  · exact .inr ⟨leftNaN, rightNaN⟩
  · rw [numberText_of_isNaN leftNaN, numberText_of_isInfinite rightWord] at equal
    split at equal <;> contradiction
  · rw [numberText_of_isInfinite leftWord, numberText_of_isNaN rightNaN] at equal
    split at equal <;> contradiction
  · rw [numberText_of_isInfinite leftWord, numberText_of_isInfinite rightWord] at equal
    have sign : left.negative = right.negative := by
      revert equal
      cases left.negative <;> cases right.negative <;> decide
    have leftCode : left.code = infinityCode := of_decide_eq_true leftWord
    have rightCode : right.code = infinityCode := of_decide_eq_true rightWord
    left
    simp [Binary64.same, isNaN, leftCode, rightCode, sign]

theorem same_of_numberText_eq (equal : numberText left = numberText right) :
    left.same right = true ∨ left.isNaN = true ∧ right.isNaN = true := by
  cases leftFinite : left.isFinite <;> cases rightFinite : right.isFinite
  · exact same_of_words_eq leftFinite rightFinite equal
  · obtain ⟨_, _, read, -⟩ := read?_numberText rightFinite
    rw [← equal, read?_numberText_of_not_finite leftFinite] at read
    contradiction
  · obtain ⟨_, _, read, -⟩ := read?_numberText leftFinite
    rw [equal, read?_numberText_of_not_finite rightFinite] at read
    contradiction
  · -- One text is read only one way, and what is read equals both numbers.
    obtain ⟨negative, value, read, same⟩ := read?_numberText leftFinite
    obtain ⟨_, _, again, other⟩ := read?_numberText rightFinite
    rw [← equal, read] at again
    cases again
    exact .inl (same_of_same same other)

end Pair

/-- The text of a finite nonzero number denotes the exact decimal of its digits. These start
and end with a digit other than zero and are nearest to that number alone, so reading the
text gives the number back. No two numbers that differ share a text. -/
theorem number_text_exact :
    (∀ number : Binary64, number.isFinite = true → number.isZero = false →
      ∃ value : Decimal,
        Numeral.read? (text (.number number)).toList = some (number.negative, value) ∧
        ofDecimal number.negative value = number ∧
        let shortest := number.shortest numberLayout.tie
        value.toRat = Nat.ofDigitChars 10 shortest.digits 0 *
          (10 : ℚ) ^ (shortest.leading - (shortest.digits.length - 1)) ∧
        shortest.digits.head? ≠ some '0' ∧ shortest.Canonical ∧
        Nearest shortest.toRat number.code) ∧
    ∀ left right : Binary64, text (.number left) = text (.number right) ↔
      left.same right = true ∨ left.isNaN = true ∧ right.isNaN = true := by
  constructor
  · intro number finite nonzero
    obtain ⟨value, read, exact⟩ := read?_numberText_of_nonzero finite nonzero
    have some := significand_shortest_ne_zero finite nonzero numberLayout.tie
    refine ⟨value, ?_, ?_, ?_, Decimal.head?_toDigits_ne_zero some,
      canonical_shortest finite nonzero _, nearest_shortest finite _⟩
    · rw [text, String.toList_ofList, read]
    · rw [ofDecimal_congr _ exact, ofDecimal_shortest finite]
    · rw [exact, Decimal.toRat, Decimal.ofDigitChars_digits, Decimal.leading]
      congr 2
      omega
  · intro left right
    rw [text, text, String.ofList_inj]
    constructor
    · exact same_of_numberText_eq
    · rintro (same | ⟨leftNaN, rightNaN⟩)
      · exact numberText_eq_of_same same
      · rw [numberText_of_isNaN leftNaN, numberText_of_isNaN rightNaN]

theorem number_text_exact_fifteen_tenths :
    (ofBits 0x3ff8000000000000).isFinite = true ∧ (ofBits 0x3ff8000000000000).isZero = false ∧
      ∃ value : Decimal,
        Numeral.read? (text (.number (ofBits 0x3ff8000000000000))).toList =
          some (false, value) ∧
        ofDecimal false value = ofBits 0x3ff8000000000000 := by
  have finite : (ofBits 0x3ff8000000000000).isFinite = true := by decide
  have nonzero : (ofBits 0x3ff8000000000000).isZero = false := by decide
  obtain ⟨value, read, back, -⟩ := number_text_exact.1 _ finite nonzero
  exact ⟨finite, nonzero, value, read, back⟩

end Literal

end AccessRules
