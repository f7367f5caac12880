import AccessRules.Message
import AccessRules.Number.Shortest

namespace AccessRules

inductive Literal where
  | null
  | boolean (value : Bool)
  | number (value : Binary64)
  /-- Written between single quotes. A quote inside is not escaped. -/
  | string (value : String)
deriving DecidableEq

namespace Literal

/-- Numbers are written plainly from `1e-6` up to and without `1e21`, and with an
exponent beyond. -/
def numberLayout : Decimal.Layout where
  plainFrom := -6
  plainTo := 20
  marksWhole := false
  tie := .up

/-- The text of a number. Both zeros are `0`. -/
def numberText (number : Binary64) : List Char :=
  if number.isNaN then "NaN".toList
  else if number.isInfinite then (if number.negative then "-Infinity" else "Infinity").toList
  else if number.isZero then ['0']
  else
    (if number.negative then ['-'] else []) ++
      numberLayout.write (number.shortest numberLayout.tie)

def hasQuote (text : String) : Bool := text.toList.contains '\''

def text : Literal → String
  | .null => "null"
  | .boolean true => "true"
  | .boolean false => "false"
  | .number value => String.ofList (numberText value)
  | .string value => "'" ++ value ++ "'"

def warnings : Literal → List Message
  | .string value => if hasQuote value then [.literalQuote value] else []
  | _ => []

/-- Equality with numbers compared by value. -/
def same : Literal → Literal → Bool
  | .number left, .number right => left.same right
  | left, right => left = right

end Literal

end AccessRules
