import AccessRules.Json.Printer
import AccessRules.Json.Reader
import AccessRules.Proofs.Number.Numeral

namespace AccessRules.Json

open NaturalPower

/-- What may stand behind a value: a comma, a closing bracket, a blank or nothing. -/
def EndsValue (rest : List Char) : Prop :=
  ∀ char ∈ rest.head?, char = ',' ∨ char = ']' ∨ char = '}' ∨ isBlank char = true

variable {rest : List Char}

theorem isBlank_cases {char : Char} (blank : isBlank char = true) :
    char = ' ' ∨ char = '\t' ∨ char = '\n' ∨ char = '\r' := by
  simpa [isBlank, or_assoc] using blank

theorem endsValue_cons {char : Char}
    (ends : char = ',' ∨ char = ']' ∨ char = '}' ∨ isBlank char = true) (rest : List Char) :
    EndsValue (char :: rest) := by
  intro first found
  cases found
  exact ends

/-- None of the characters behind a value could go on with a number. -/
theorem EndsValue.cases {char : Char} (ends : EndsValue (char :: rest)) :
    char.isDigit = false ∧ char ≠ '.' ∧ exponentMark char = false := by
  rcases ends char rfl with rfl | rfl | rfl | blank
  · decide
  · decide
  · decide
  · rcases isBlank_cases blank with rfl | rfl | rfl | rfl <;> decide

theorem EndsValue.stopsDigits (ends : EndsValue rest) : Numeral.StopsDigits rest := by
  cases rest with
  | nil => simp [Numeral.StopsDigits]
  | cons char rest =>
      intro first found
      cases found
      exact ends.cases.1

/-- Reading goes on like this behind the digits in front of a point. -/
def readAfterWhole (negative : Bool) (whole : Decimal) : List Char → Reading Json
  | '.' :: more => readFraction negative whole more
  | mark :: more =>
      if exponentMark mark then readExponent negative whole more
      else wholeNumber negative whole (mark :: more)
  | [] => wholeNumber negative whole []

theorem readNumber_digits (negative : Bool) {whole : List Char}
    (all : ∀ char ∈ whole, char.isDigit = true) (digits : whole ≠ [])
    (leading : whole.head? = some '0' → whole = ['0']) (stops : Numeral.StopsDigits rest) :
    readNumber negative (whole ++ rest) = readAfterWhole negative (wholeValue whole) rest := by
  unfold readNumber
  rw [Numeral.takeWhile_isDigit all stops, Numeral.dropWhile_isDigit all stops]
  dsimp only
  split
  next => exact absurd rfl digits
  next => exact absurd rfl digits
  next => exact absurd (leading rfl) (by simp)
  next => rfl
  next mark more point _ _ =>
    rw [readAfterWhole]
    exact point
  next => rfl

theorem le_ofDigitChars (digits : List Char) (value : Nat) :
    value ≤ Nat.ofDigitChars 10 digits value := by
  induction digits generalizing value with
  | nil => exact Nat.le_refl _
  | cons digit digits induction =>
      rw [Nat.ofDigitChars_cons]
      have later := induction (10 * value + (digit.toNat - '0'.toNat))
      omega

theorem readExponentDigits_digits (value : Nat) {digits : List Char}
    (all : ∀ char ∈ digits, char.isDigit = true) (stops : Numeral.StopsDigits rest)
    (limited : Nat.ofDigitChars 10 digits value ≤ exponentLimit) :
    readExponentDigits value (digits ++ rest) = .ok (Nat.ofDigitChars 10 digits value, rest) := by
  induction digits generalizing value with
  | nil =>
      cases rest with
      | nil => rfl
      | cons char rest => simp [readExponentDigits, stops char rfl]
  | cons digit digits induction =>
      have first := all digit (by simp)
      have next : value * 10 + digitValue digit = 10 * value + (digit.toNat - '0'.toNat) := by
        rw [digitValue, Nat.mul_comm]
      rw [Nat.ofDigitChars_cons] at limited ⊢
      have within := le_ofDigitChars digits (10 * value + (digit.toNat - '0'.toNat))
      rw [List.cons_append, readExponentDigits, if_pos first, next, if_neg (by omega)]
      exact induction _ (fun char member => all char (by simp [member])) limited

theorem readExponent_text (negative : Bool) (value : Decimal) {power : Int}
    (limited : power.natAbs ≤ exponentLimit) (stops : Numeral.StopsDigits rest) :
    readExponent negative value
        ((if power < 0 then '-' else '+') :: (Nat.toDigits 10 power.natAbs ++ rest)) =
      finishFloat negative ⟨value.significand, value.exponent + power⟩ rest := by
  have all : ∀ char ∈ Nat.toDigits 10 power.natAbs, char.isDigit = true := fun _ member =>
    Nat.isDigit_of_mem_toDigits (by norm_num) (by norm_num) member
  have size : Nat.ofDigitChars 10 (Nat.toDigits 10 power.natAbs) 0 = power.natAbs :=
    Nat.ofDigitChars_ten_toDigits
  have read := readExponentDigits_digits 0 all stops (by rwa [size])
  rw [size] at read
  obtain ⟨first, digits, begins⟩ := List.exists_cons_of_ne_nil
    (Nat.toDigits_ne_nil (b := 10) (n := power.natAbs))
  have digit : first.isDigit = true := all first (by simp [begins])
  rw [begins] at read ⊢
  by_cases descending : power < 0
  · rw [if_pos descending]
    simp only [readExponent, List.cons_append] at read ⊢
    simp [digit, read, abs_of_neg descending]
  · rw [if_neg descending]
    simp only [readExponent, List.cons_append] at read ⊢
    simp [digit, read, abs_of_nonneg (not_lt.mp descending)]

/-- What is kept of a numeral: of its digits those that fit, and its exponent. -/
def kept (numeral : Numeral) : Decimal :=
  let value := pushFraction (wholeValue numeral.whole) numeral.fraction
  ⟨value.significand, value.exponent + numeral.exponent.getD 0⟩

theorem readFraction_text (negative : Bool) (whole : Decimal) {fraction : List Char}
    (all : ∀ char ∈ fraction, char.isDigit = true) (digits : fraction ≠ [])
    {exponent : Option Int} (limited : ∀ power ∈ exponent, power.natAbs ≤ exponentLimit)
    (ends : EndsValue rest) :
    readFraction negative whole (fraction ++ (Numeral.exponentText exponent ++ rest)) =
      finishFloat negative ⟨(pushFraction whole fraction).significand,
        (pushFraction whole fraction).exponent + exponent.getD 0⟩ rest := by
  have stops := Numeral.stopsDigits_exponentText exponent ends.stopsDigits
  unfold readFraction
  rw [Numeral.takeWhile_isDigit all stops, Numeral.dropWhile_isDigit all stops]
  simp only [List.isEmpty_eq_false_iff.mpr digits, Bool.false_eq_true, if_false]
  cases exponent with
  | none =>
      cases rest with
      | nil => simp [Numeral.exponentText]
      | cons mark more => simp [Numeral.exponentText, ends.cases.2.2]
  | some power =>
      have read := readExponent_text negative (pushFraction whole fraction)
        (limited power rfl) ends.stopsDigits
      simpa [Numeral.exponentText, exponentMark] using read

theorem readNumber_text (negative : Bool) {numeral : Numeral}
    (marked : numeral.fraction ≠ [] ∨ numeral.exponent ≠ none)
    (limited : ∀ power ∈ numeral.exponent, power.natAbs ≤ exponentLimit)
    (ends : EndsValue rest) :
    readNumber negative (numeral.text ++ rest) = finishFloat negative (kept numeral) rest := by
  have stops := Numeral.stopsDigits_fractionText numeral.fraction
    (Numeral.stopsDigits_exponentText numeral.exponent ends.stopsDigits)
  rw [Numeral.text, List.append_assoc, List.append_assoc,
    readNumber_digits negative numeral.whole_isDigit numeral.whole_ne_nil numeral.whole_head stops,
    kept]
  by_cases pointless : numeral.fraction = []
  · have powered : numeral.exponent ≠ none := marked.resolve_left (not_not_intro pointless)
    obtain ⟨power, given⟩ := Option.ne_none_iff_exists'.mp powered
    have read := readExponent_text negative (wholeValue numeral.whole)
      (limited power given) ends.stopsDigits
    rw [pointless, given]
    simpa [Numeral.fractionText, Numeral.exponentText, readAfterWhole, exponentMark,
      pushFraction] using read
  · rw [Numeral.fractionText_of_ne_nil pointless]
    exact readFraction_text negative _ numeral.fraction_isDigit pointless limited ends

theorem isBlank_of_isDigit {char : Char} (digit : char.isDigit = true) : isBlank char = false := by
  refine eq_false_of_ne_true fun blank => ?_
  rcases isBlank_cases blank with rfl | rfl | rfl | rfl <;> contradiction

theorem skipBlanks_cons {char : Char} (solid : isBlank char = false) (rest : List Char) :
    skipBlanks (char :: rest) = char :: rest := by
  simp [skipBlanks, solid]

theorem readValueWith_numeral (inner : Option (Reader Json)) (negative : Bool)
    (numeral : Numeral) (rest : List Char) :
    readValueWith inner ((if negative then ['-'] else []) ++ (numeral.text ++ rest)) =
      readNumber negative (numeral.text ++ rest) := by
  obtain ⟨first, digits, begins⟩ := List.exists_cons_of_ne_nil numeral.whole_ne_nil
  have digit : first.isDigit = true := numeral.whole_isDigit first (by simp [begins])
  have starts : ∃ more, numeral.text ++ rest = first :: more := by
    simp [Numeral.text, begins]
  obtain ⟨more, starts⟩ := starts
  cases negative with
  | true =>
      simp only [if_true, List.singleton_append]
      rw [readValueWith, skipBlanks_cons rfl]
      rfl
  | false =>
      simp only [Bool.false_eq_true, if_false, List.nil_append]
      rw [starts, readValueWith, skipBlanks_cons (isBlank_of_isDigit digit)]
      split <;> simp_all

theorem leading_shortest_bounds {number : Binary64} (finite : number.isFinite = true)
    (nonzero : number.isZero = false) (tie : Decimal.Tie) :
    -330 ≤ (number.shortest tie).leading ∧ (number.shortest tie).leading ≤ 310 := by
  have read := Binary64.ofDecimal_shortest finite tie
  have some := Binary64.significand_shortest_ne_zero finite nonzero tie
  rw [Binary64.ofDecimal, if_neg some] at read
  constructor
  · by_contra below
    rw [if_neg (by omega), if_pos (by omega)] at read
    rw [← read] at nonzero
    contradiction
  · by_contra above
    rw [if_pos (by omega)] at read
    rw [← read] at finite
    contradiction

/-- A finite number is written as a numeral with a point or an exponent. -/
theorem floatText_eq_text {number : Binary64} (finite : number.isFinite = true) :
    ∃ numeral : Numeral,
      floatText number = (if number.negative then ['-'] else []) ++ numeral.text ∧
        (numeral.fraction ≠ [] ∨ numeral.exponent ≠ none) ∧
        ∀ power ∈ numeral.exponent, power.natAbs ≤ exponentLimit := by
  unfold floatText
  cases zero : number.isZero with
  | true =>
      exact ⟨.belowOne ⟨0, 0⟩ 0, rfl, .inl (by simp [Numeral.belowOne]), by simp [Numeral.belowOne]⟩
  | false =>
      obtain ⟨numeral, written, -, exponent, marked⟩ := Decimal.write_eq_text floatLayout
        (Binary64.significand_shortest_ne_zero finite zero floatLayout.tie)
      have bounds := leading_shortest_bounds finite zero floatLayout.tie
      refine ⟨numeral, by rw [written]; rfl, marked rfl, ?_⟩
      intro power given
      rcases exponent with none | leading
      · simp [none] at given
      · rw [leading] at given
        cases given
        unfold exponentLimit
        omega

/-- The number that is made of a significand and an exponent, if it is within the range. -/
def floatOutcome (negative : Bool) (value : Decimal) : Option Json :=
  ((Binary64.ofInt value.significand).shiftDecimal value.exponent).map fun number =>
    .float { number with negative }

theorem toOption_finishFloat (negative : Bool) (value : Decimal) (rest : List Char) :
    (finishFloat negative value rest).toOption =
      (floatOutcome negative value).map fun number => (number, rest) := by
  unfold finishFloat floatOutcome
  cases (Binary64.ofInt value.significand).shiftDecimal value.exponent <;> rfl

/-- The outcome for a number without point and exponent. -/
def wholeOutcome (negative : Bool) (value : Decimal) : Option Json :=
  if value.exponent ≠ 0 then floatOutcome negative value
  else if !negative then some (.integer value.significand)
  else if value.significand ≠ 0 ∧ value.significand ≤ 2 ^ (63 : Nat) then
    some (.integer (-(value.significand : Int)))
  else floatOutcome true value

theorem toOption_wholeNumber (negative : Bool) (value : Decimal) (rest : List Char) :
    (wholeNumber negative value rest).toOption =
      (wholeOutcome negative value).map fun number => (number, rest) := by
  unfold wholeNumber wholeOutcome
  split_ifs
  · exact toOption_finishFloat negative value rest
  · rfl
  · rfl
  · exact toOption_finishFloat true value rest

theorem readNumber_ofNat (negative : Bool) (size : Nat) (ends : EndsValue rest) :
    readNumber negative ((Numeral.ofNat size).text ++ rest) =
      wholeNumber negative (wholeValue (Numeral.ofNat size).whole) rest := by
  rw [Numeral.text_ofNat]
  change readNumber negative ((Numeral.ofNat size).whole ++ rest) = _
  rw [readNumber_digits negative (Numeral.ofNat size).whole_isDigit
    (Numeral.ofNat size).whole_ne_nil (Numeral.ofNat size).whole_head ends.stopsDigits]
  unfold readAfterWhole
  split
  next => exact absurd rfl ends.cases.2.1
  next => rw [ends.cases.2.2, if_neg (by decide)]
  next => rfl

end AccessRules.Json
