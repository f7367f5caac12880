import AccessRules.Json.Fault

namespace AccessRules.Json

/-! Reading numbers.

The digits around the point fill a significand of 64 bits at a power of ten. What does not
fit has no part in the value. The significand is rounded, and then moved by decimal places,
so a number of many digits may come out beside the nearest one.
-/

open NaturalPower

def digitValue (char : Char) : Nat := char.toNat - '0'.toNat

/-- The first significand that is too great. -/
def significandLimit : Nat := 2 ^ (64 : Nat)

/-- The next digit in front of a point. Behind the first one that does not fit digits
count as places alone. -/
def pushWhole (value : Decimal) (digit : Char) : Decimal :=
  let significand := value.significand * 10 + digitValue digit
  if value.exponent = 0 ∧ significand < significandLimit then ⟨significand, 0⟩
  else ⟨value.significand, value.exponent + 1⟩

def wholeValue (digits : List Char) : Decimal := digits.foldl pushWhole ⟨0, 0⟩

/-- The digits behind a point, up to the first one that does not fit. -/
def pushFraction (value : Decimal) : List Char → Decimal
  | [] => value
  | digit :: rest =>
      let significand := value.significand * 10 + digitValue digit
      if significand < significandLimit then pushFraction ⟨significand, value.exponent - 1⟩ rest
      else value

def exponentLimit : Nat := 2 ^ (31 : Nat) - 1

/-- The value of exponent digits, or what follows the digit that passes the limit. -/
def readExponentDigits : Nat → List Char → Except (List Char) (Nat × List Char)
  | value, [] => .ok (value, [])
  | value, char :: rest =>
      if char.isDigit then
        let next := value * 10 + digitValue char
        if exponentLimit < next then .error rest else readExponentDigits next rest
      else .ok (value, char :: rest)

/-- A floating-point number. Values that would round to infinity are refused. -/
def finishFloat (negative : Bool) (value : Decimal) (rest : List Char) : Reading Json :=
  match (Binary64.ofInt value.significand).shiftDecimal value.exponent with
  | some number => .ok (.float { number with negative }, rest)
  | none => failBefore .numberRange rest

/-- The part after the exponent mark. An exponent past the limit makes the number
zero, unless it is positive and a digit is not zero. -/
def readExponent (negative : Bool) (value : Decimal) (text : List Char) : Reading Json :=
  let (descending, unsigned) := match text with
    | '+' :: rest => (false, rest)
    | '-' :: rest => (true, rest)
    | _ => (false, text)
  match unsigned with
  | [] => failAt .endOfValue []
  | first :: _ =>
      if !first.isDigit then failAt .invalidNumber unsigned
      else
        match readExponentDigits 0 unsigned with
        | .ok (size, rest) =>
            let shift : Int := if descending then -size else size
            finishFloat negative ⟨value.significand, value.exponent + shift⟩ rest
        | .error rest =>
            if value.significand ≠ 0 ∧ !descending then failBefore .numberRange rest
            else .ok (.float (Binary64.zero negative), rest.dropWhile Char.isDigit)

def exponentMark (char : Char) : Bool := char == 'e' || char == 'E'

def readFraction (negative : Bool) (whole : Decimal) (text : List Char) : Reading Json :=
  let fraction := text.takeWhile Char.isDigit
  let rest := text.dropWhile Char.isDigit
  let value := pushFraction whole fraction
  if fraction.isEmpty then
    match rest with
    | [] => failAt .endOfValue []
    | _ => failAt .invalidNumber rest
  else
    match rest with
    | mark :: more =>
        if exponentMark mark then readExponent negative value more
        else finishFloat negative value rest
    | [] => finishFloat negative value rest

/-- A number without point and exponent. It stays whole within the signed and
unsigned 64-bit ranges; a negative zero does not. -/
def wholeNumber (negative : Bool) (value : Decimal) (rest : List Char) : Reading Json :=
  if value.exponent ≠ 0 then finishFloat negative value rest
  else if !negative then .ok (.integer value.significand, rest)
  else if value.significand ≠ 0 ∧ value.significand ≤ 2 ^ (63 : Nat) then
    .ok (.integer (-(value.significand : Int)), rest)
  else finishFloat true value rest

def readNumber (negative : Bool) (text : List Char) : Reading Json :=
  let whole := text.takeWhile Char.isDigit
  let rest := text.dropWhile Char.isDigit
  match whole, rest with
  | [], [] => failAt .endOfValue []
  | [], _ => failAt .invalidNumber text
  | '0' :: second :: more, _ => failAt .invalidNumber (second :: more ++ rest)
  | _, '.' :: more => readFraction negative (wholeValue whole) more
  | _, mark :: more =>
      if exponentMark mark then readExponent negative (wholeValue whole) more
      else wholeNumber negative (wholeValue whole) rest
  | _, [] => wholeNumber negative (wholeValue whole) rest

end AccessRules.Json
