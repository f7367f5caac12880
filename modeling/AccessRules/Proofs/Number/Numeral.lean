import AccessRules.Proofs.Number.Reading

namespace AccessRules

open NaturalPower

namespace Decimal

@[simp]
theorem digits_ne_nil (value : Decimal) : value.digits ≠ [] :=
  Nat.toDigits_ne_nil

theorem isDigit_of_mem_digits {value : Decimal} {char : Char} (member : char ∈ value.digits) :
    char.isDigit = true :=
  Nat.isDigit_of_mem_toDigits (by norm_num) (by norm_num) member

theorem ofDigitChars_digits (value : Decimal) :
    Nat.ofDigitChars 10 value.digits 0 = value.significand :=
  Nat.ofDigitChars_ten_toDigits

theorem head?_toDigits_ne_zero {number : Nat} (nonzero : number ≠ 0) :
    (Nat.toDigits 10 number).head? ≠ some '0' := by
  induction number using Nat.strong_induction_on with
  | _ number ih =>
      rw [Nat.toDigits_eq_if (by norm_num)]
      split
      · simpa [Nat.digitChar_eq_zero] using nonzero
      · rw [List.head?_append_of_ne_nil _ Nat.toDigits_ne_nil]
        exact ih (number / 10) (by omega) (by omega)

/-- Zeros at the end of the significand weigh as much as the exponent gives up for them. -/
theorem toRat_of_shift {value other : Decimal} (moved : Nat)
    (significand : other.significand = value.significand * 10 ^ moved)
    (exponent : other.exponent + moved = value.exponent) : other.toRat = value.toRat := by
  rw [toRat, toRat, significand, ← exponent, zpow_add₀ (by norm_num), zpow_natCast]
  push_cast
  ring

end Decimal

structure Numeral where
  whole : List Char
  /-- The digits behind the point. Without any there is no point. -/
  fraction : List Char
  exponent : Option Int
  whole_isDigit : ∀ char ∈ whole, char.isDigit = true
  fraction_isDigit : ∀ char ∈ fraction, char.isDigit = true
  whole_ne_nil : whole ≠ []
  /-- No zero stands in front of other digits before the point. -/
  whole_head : whole.head? = some '0' → whole = ['0']

namespace Numeral

def exponentText : Option Int → List Char
  | none => []
  | some power => 'e' :: (if power < 0 then '-' else '+') :: Nat.toDigits 10 power.natAbs

def fractionText : List Char → List Char
  | [] => []
  | digit :: digits => '.' :: digit :: digits

theorem fractionText_of_ne_nil {fraction : List Char} (digits : fraction ≠ []) :
    fractionText fraction = '.' :: fraction := by
  cases fraction with
  | nil => exact absurd rfl digits
  | cons => rfl

def text (numeral : Numeral) : List Char :=
  numeral.whole ++ (fractionText numeral.fraction ++ exponentText numeral.exponent)

def decimal (numeral : Numeral) : Decimal :=
  ⟨Nat.ofDigitChars 10 (numeral.whole ++ numeral.fraction) 0,
    numeral.exponent.getD 0 - numeral.fraction.length⟩

variable {value : Decimal}

def ofNat (number : Nat) : Numeral where
  whole := Nat.toDigits 10 number
  fraction := []
  exponent := none
  whole_isDigit _ member := Nat.isDigit_of_mem_toDigits (by norm_num) (by norm_num) member
  fraction_isDigit _ member := absurd member List.not_mem_nil
  whole_ne_nil := Nat.toDigits_ne_nil
  whole_head starts := by
    by_cases zero : number = 0
    · rw [zero, Nat.toDigits_zero]
    · exact absurd starts (Decimal.head?_toDigits_ne_zero zero)

theorem text_ofNat (size : Nat) : (ofNat size).text = Nat.toDigits 10 size := by
  simp [text, ofNat, fractionText, exponentText]

theorem toList_toString (value : Int) :
    (toString value).toList = (if value < 0 then ['-'] else []) ++ (ofNat value.natAbs).text := by
  rw [text_ofNat]
  cases value with
  | ofNat size =>
      have nonnegative : ¬ Int.ofNat size < 0 := by
        rw [Int.ofNat_eq_natCast]
        omega
      rw [if_neg nonnegative]
      exact Nat.toList_repr
  | negSucc size =>
      rw [if_pos (Int.negSucc_lt_zero size)]
      change ("-" ++ Nat.repr (size + 1)).toList = _
      rw [String.toList_append, Nat.toList_repr]
      rfl

/-- The digits of a value behind a point and zeros. -/
def belowOne (value : Decimal) (zeros : Nat) : Numeral where
  whole := ['0']
  fraction := List.replicate zeros '0' ++ value.digits
  exponent := none
  whole_isDigit _ member := by simp_all
  fraction_isDigit char member := by
    rcases List.mem_append.mp member with zero | digit
    · rw [List.eq_of_mem_replicate zero]
      rfl
    · exact Decimal.isDigit_of_mem_digits digit
  whole_ne_nil := by simp
  whole_head _ := rfl

/-- The digits of a value with zeros in front of the point, which may be left out. -/
def filled (nonzero : value.significand ≠ 0) (zeros : Nat) (marked : Bool) : Numeral where
  whole := value.digits ++ List.replicate zeros '0'
  fraction := if marked then ['0'] else []
  exponent := none
  whole_isDigit char member := by
    rcases List.mem_append.mp member with digit | zero
    · exact Decimal.isDigit_of_mem_digits digit
    · rw [List.eq_of_mem_replicate zero]
      rfl
  fraction_isDigit _ member := by
    cases marked <;> simp_all
  whole_ne_nil := by simp
  whole_head starts := by
    rw [List.head?_append_of_ne_nil _ value.digits_ne_nil] at starts
    exact absurd starts (Decimal.head?_toDigits_ne_zero nonzero)

/-- The digits of a value with the point behind some of them. -/
def split (nonzero : value.significand ≠ 0) (count : Nat) (some : 0 < count)
    (exponent : Option Int) : Numeral where
  whole := value.digits.take count
  fraction := value.digits.drop count
  exponent := exponent
  whole_isDigit _ member := Decimal.isDigit_of_mem_digits (List.mem_of_mem_take member)
  fraction_isDigit _ member := Decimal.isDigit_of_mem_digits (List.mem_of_mem_drop member)
  whole_ne_nil := by simp [some.ne']
  whole_head starts := by
    rw [List.head?_take, if_neg some.ne'] at starts
    exact absurd starts (Decimal.head?_toDigits_ne_zero nonzero)

theorem toRat_belowOne {zeros : Nat} (below : value.leading = -(zeros + 1)) :
    (belowOne value zeros).decimal.toRat = value.toRat := by
  refine Decimal.toRat_of_shift 0 ?_ ?_
  · simp [decimal, belowOne, Nat.ofDigitChars_append, Nat.ofDigitChars_replicate_zero,
      Nat.ofDigitChars_cons, Decimal.ofDigitChars_digits]
  · simp only [decimal, belowOne, Option.getD_none, List.length_append, List.length_replicate]
    unfold Decimal.leading at below
    omega

theorem toRat_filled (nonzero : value.significand ≠ 0) {zeros : Nat} (marked : Bool)
    (whole : value.leading + 1 = value.digits.length + zeros) :
    (filled nonzero zeros marked).decimal.toRat = value.toRat := by
  refine Decimal.toRat_of_shift (zeros + (filled nonzero zeros marked).fraction.length) ?_ ?_
  · cases marked <;>
      simp [decimal, filled, Nat.ofDigitChars_append, Nat.ofDigitChars_replicate_zero,
        Nat.ofDigitChars_cons, Decimal.ofDigitChars_digits, Nat.pow_succ, Nat.mul_comm,
        Nat.mul_left_comm]
  · simp only [decimal, filled, Option.getD_none]
    unfold Decimal.leading at whole
    omega

theorem toRat_split (nonzero : value.significand ≠ 0) {count : Nat} (some : 0 < count)
    {exponent : Option Int} (place : value.leading + 1 = exponent.getD 0 + count)
    (inside : count ≤ value.digits.length) :
    (split nonzero count some exponent).decimal.toRat = value.toRat := by
  refine Decimal.toRat_of_shift 0 ?_ ?_
  · simp [decimal, split, Decimal.ofDigitChars_digits]
  · simp only [decimal, split, List.length_drop]
    unfold Decimal.leading at place
    omega

/-- A scan of digits stops in front of such a text. -/
def StopsDigits (rest : List Char) : Prop := ∀ char ∈ rest.head?, char.isDigit = false

section Scan

variable {digits rest : List Char}

theorem stopsDigits_nil : StopsDigits [] := by
  simp [StopsDigits]

theorem takeWhile_isDigit (all : ∀ char ∈ digits, char.isDigit = true)
    (stops : StopsDigits rest) : (digits ++ rest).takeWhile Char.isDigit = digits := by
  rw [List.takeWhile_append_of_pos all]
  cases rest with
  | nil => simp
  | cons char _ => simp [stops char rfl]

theorem dropWhile_isDigit (all : ∀ char ∈ digits, char.isDigit = true)
    (stops : StopsDigits rest) : (digits ++ rest).dropWhile Char.isDigit = rest := by
  rw [List.dropWhile_append_of_pos all]
  cases rest with
  | nil => rfl
  | cons char _ => simp [stops char rfl]

theorem stopsDigits_exponentText (exponent : Option Int) (stops : StopsDigits rest) :
    StopsDigits (exponentText exponent ++ rest) := by
  cases exponent with
  | none => exact stops
  | some power => rintro char ⟨rfl⟩; rfl

theorem stopsDigits_fractionText (fraction : List Char) (stops : StopsDigits rest) :
    StopsDigits (fractionText fraction ++ rest) := by
  cases fraction with
  | nil => exact stops
  | cons digit digits => rintro char ⟨rfl⟩; rfl

end Scan

end Numeral

namespace Decimal

variable {value : Decimal}

theorem plain_of_small (layout : Layout) (digits : List Char) {leading : Int}
    (small : leading < 0) :
    layout.plain digits leading =
      '0' :: '.' :: (List.replicate (-leading - 1).toNat '0' ++ digits) := by
  unfold Layout.plain
  rw [if_pos small]
  rfl

theorem plain_of_whole (layout : Layout) (digits : List Char) {leading : Int}
    (large : ¬ leading < 0) (whole : (digits.length : Int) ≤ leading + 1) :
    layout.plain digits leading =
      digits ++ List.replicate (leading + 1 - digits.length).toNat '0' ++
        (if layout.marksWhole then ['.', '0'] else []) := by
  unfold Layout.plain
  rw [if_neg large, if_pos whole]
  rfl

theorem plain_of_mixed (layout : Layout) (digits : List Char) {leading : Int}
    (large : ¬ leading < 0) (mixed : ¬ (digits.length : Int) ≤ leading + 1) :
    layout.plain digits leading =
      digits.take (leading + 1).toNat ++ '.' :: digits.drop (leading + 1).toNat := by
  unfold Layout.plain
  rw [if_neg large, if_neg mixed]

/-- A value written without an exponent: behind the point alone, in front of it alone, or on
both sides. No count of zeros is negative, and the point stands inside the digits. -/
theorem plain_cases (layout : Layout) (nonzero : value.significand ≠ 0) :
    (∃ zeros : Nat, value.leading = -(zeros + 1) ∧
      layout.plain value.digits value.leading = (Numeral.belowOne value zeros).text) ∨
    (∃ zeros : Nat, value.leading + 1 = value.digits.length + zeros ∧
      layout.plain value.digits value.leading =
        (Numeral.filled nonzero zeros layout.marksWhole).text) ∨
    ∃ (count : Nat) (some : 0 < count), value.leading + 1 = count ∧
      count < value.digits.length ∧
      layout.plain value.digits value.leading = (Numeral.split nonzero count some none).text := by
  by_cases small : value.leading < 0
  · refine .inl ⟨(-value.leading - 1).toNat, by omega, ?_⟩
    rw [plain_of_small layout _ small]
    simp [Numeral.text, Numeral.belowOne, Numeral.fractionText_of_ne_nil, Numeral.exponentText]
  · by_cases whole : (value.digits.length : Int) ≤ value.leading + 1
    · refine .inr (.inl ⟨(value.leading + 1 - value.digits.length).toNat, by omega, ?_⟩)
      rw [plain_of_whole layout _ small whole]
      cases layout.marksWhole <;>
        simp [Numeral.text, Numeral.filled, Numeral.fractionText, Numeral.exponentText]
    · have behind : value.digits.drop (value.leading + 1).toNat ≠ [] := by
        rw [ne_eq, List.drop_eq_nil_iff]
        omega
      refine .inr (.inr ⟨(value.leading + 1).toNat, by omega, by omega, by omega, ?_⟩)
      rw [plain_of_mixed layout _ small whole]
      simp only [Numeral.text, Numeral.split, Numeral.exponentText]
      rw [Numeral.fractionText_of_ne_nil behind, List.append_nil]

/-- A value written without an exponent. Where the layout marks whole numbers, there
always is a point. -/
theorem plain_eq_text (layout : Layout) (nonzero : value.significand ≠ 0) :
    ∃ numeral : Numeral, layout.plain value.digits value.leading = numeral.text ∧
      numeral.decimal.toRat = value.toRat ∧ numeral.exponent = none ∧
      (layout.marksWhole = true → numeral.fraction ≠ []) := by
  rcases plain_cases layout nonzero with ⟨zeros, place, written⟩ | ⟨zeros, place, written⟩ |
    ⟨count, some, place, inside, written⟩
  · exact ⟨_, written, Numeral.toRat_belowOne place, rfl, fun _ => by simp [Numeral.belowOne]⟩
  · exact ⟨_, written, Numeral.toRat_filled nonzero _ place, rfl,
      fun marked => by simp [Numeral.filled, marked]⟩
  · refine ⟨_, written, Numeral.toRat_split nonzero some (by simpa using place) (by omega), rfl,
      fun _ => ?_⟩
    rw [Numeral.split, ne_eq, List.drop_eq_nil_iff]
    omega

theorem scientific_eq (digits : List Char) (leading : Int) :
    scientific digits leading =
      digits.take 1 ++
        (Numeral.fractionText (digits.drop 1) ++ Numeral.exponentText (some leading)) := by
  rcases digits with _ | ⟨first, _ | ⟨second, rest⟩⟩ <;> rfl

theorem scientific_eq_text (nonzero : value.significand ≠ 0) :
    ∃ numeral : Numeral, scientific value.digits value.leading = numeral.text ∧
      numeral.decimal.toRat = value.toRat ∧ numeral.exponent = some value.leading :=
  ⟨.split nonzero 1 Nat.one_pos (some value.leading), scientific_eq _ _,
    Numeral.toRat_split nonzero _ rfl value.length_digits_pos, rfl⟩

/-- Whatever the layout decides, it writes a numeral of the value. -/
theorem write_eq_text (layout : Layout) (nonzero : value.significand ≠ 0) :
    ∃ numeral : Numeral, layout.write value = numeral.text ∧
      numeral.decimal.toRat = value.toRat ∧
      (numeral.exponent = none ∨ numeral.exponent = some value.leading) ∧
      (layout.marksWhole = true → numeral.fraction ≠ [] ∨ numeral.exponent ≠ none) := by
  unfold Layout.write
  split
  · obtain ⟨numeral, written, equal, bare, marked⟩ := plain_eq_text layout nonzero
    exact ⟨numeral, written, equal, .inl bare, fun marks => .inl (marked marks)⟩
  · obtain ⟨numeral, written, equal, power⟩ := scientific_eq_text nonzero
    exact ⟨numeral, written, equal, .inr power, fun _ => .inr (by simp [power])⟩

end Decimal

end AccessRules
