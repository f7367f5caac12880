import AccessRules.Json.Printer
import AccessRules.Json.Reader.Text
import Mathlib.Tactic.SplitIfs

namespace AccessRules.Json

theorem hexDigit?_digitChar {digit : Nat} (single : digit < 16) :
    hexDigit? (Nat.digitChar digit) = some digit := by
  revert digit
  decide

theorem readEscape_control {char : Char} (control : char.toNat < 0x20) (rest : List Char) :
    readEscape ('u' :: '0' :: '0' :: Nat.digitChar (char.toNat / 16) ::
      Nat.digitChar (char.toNat % 16) :: rest) = .ok (char, rest) := by
  have high : hexDigit? (Nat.digitChar (char.toNat / 16)) = some (char.toNat / 16) :=
    hexDigit?_digitChar (by omega)
  have low : hexDigit? (Nat.digitChar (char.toNat % 16)) = some (char.toNat % 16) :=
    hexDigit?_digitChar (by omega)
  have zero : hexDigit? '0' = some 0 := rfl
  have unit : ((0 * 16 + 0) * 16 + char.toNat / 16) * 16 + char.toNat % 16 = char.toNat := by
    omega
  have alone : isTrailing char.toNat = false ∧ isLeading char.toNat = false := by
    simp only [isTrailing, isLeading, Bool.and_eq_false_iff, decide_eq_false_iff_not]
    omega
  simp only [readEscape, readUnicodeEscape, readCodeUnit, high, low, zero, unit, alone.1, alone.2,
    Bool.false_eq_true, if_false, Char.ofNat_toNat]

theorem readCharacters_escape {char : Char} {escaped rest : List Char}
    (read : readEscape escaped = .ok (char, rest)) (steps : Nat) :
    readCharacters (steps + 1) ('\\' :: escaped) =
      (readCharacters steps rest).map fun (chars, last) => (char :: chars, last) := by
  simp [readCharacters, read]

theorem readCharacters_plain {char : Char} (quote : char ≠ '"') (backslash : char ≠ '\\')
    (control : ¬ char.toNat < 0x20) (steps : Nat) (rest : List Char) :
    readCharacters (steps + 1) (char :: rest) =
      (readCharacters steps rest).map fun (chars, last) => (char :: chars, last) := by
  rw [readCharacters]
  · rw [if_neg control]
  · exact quote
  · exact backslash

theorem readCharacters_escapeChar (char : Char) (steps : Nat) (rest : List Char) :
    readCharacters (steps + 1) (escapeChar char ++ rest) =
      (readCharacters steps rest).map fun (chars, last) => (char :: chars, last) := by
  unfold escapeChar
  split_ifs with quote backslash b f n r t control
  case pos => exact readCharacters_escape (by rw [quote]; rfl) steps
  case pos => exact readCharacters_escape (by rw [backslash]; rfl) steps
  case pos => exact readCharacters_escape (by rw [b]; rfl) steps
  case pos => exact readCharacters_escape (by rw [f]; rfl) steps
  case pos => exact readCharacters_escape (by rw [n]; rfl) steps
  case pos => exact readCharacters_escape (by rw [r]; rfl) steps
  case pos => exact readCharacters_escape (by rw [t]; rfl) steps
  case pos => exact readCharacters_escape (readEscape_control control rest) steps
  case neg => exact readCharacters_plain quote backslash control steps rest

theorem readCharacters_escaped (chars rest : List Char) {steps : Nat}
    (enough : chars.length < steps) :
    readCharacters steps (chars.flatMap escapeChar ++ '"' :: rest) = .ok (chars, rest) := by
  induction chars generalizing steps with
  | nil =>
      cases steps with
      | zero => contradiction
      | succ steps => rfl
  | cons char chars induction =>
      cases steps with
      | zero => contradiction
      | succ steps =>
          rw [List.flatMap_cons, List.append_assoc, readCharacters_escapeChar,
            induction (Nat.lt_of_succ_lt_succ enough)]
          rfl

theorem length_le_flatMap_escapeChar (chars : List Char) :
    chars.length ≤ (chars.flatMap escapeChar).length := by
  induction chars with
  | nil => exact Nat.le_refl _
  | cons char chars induction =>
      have some : 0 < (escapeChar char).length := by
        unfold escapeChar
        split_ifs <;> exact Nat.succ_pos _
      rw [List.flatMap_cons, List.length_append, List.length_cons]
      omega

theorem toList_quote (text : String) :
    (quote text).toList = '"' :: (text.toList.flatMap escapeChar ++ ['"']) := by
  rw [quote, String.toList_ofList]
  rfl

theorem readString_quote (text : String) (rest : List Char) :
    readString (text.toList.flatMap escapeChar ++ '"' :: rest) = .ok (text, rest) := by
  have enough : text.toList.length < (text.toList.flatMap escapeChar ++ '"' :: rest).length + 1 := by
    have longer := length_le_flatMap_escapeChar text.toList
    rw [List.length_append]
    omega
  rw [readString, readCharacters_escaped _ _ enough]
  simp [Except.map, String.ofList_toList]

end AccessRules.Json
