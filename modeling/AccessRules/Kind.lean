import AccessRules.Token

namespace AccessRules

/-! Kinds of values and the places in an expression that ask for one.

A kind limits where an operand may stand. It never changes the text.
-/

/-- What is known of the value that an operand stands for. -/
inductive Kind where
  /-- Nothing is known, so the value may be used as every other kind. -/
  | any
  | null
  | boolean
  | number
  | string
deriving DecidableEq, Repr

def Kind.name : Kind → String
  | .any => "any"
  | .null => "null"
  | .boolean => "boolean"
  | .number => "number"
  | .string => "string"

/-- What a place in an expression asks of its operand. -/
inductive Role where
  | expression
  | boolean
  | number
  | string
  | null
  /-- An operand of `+`. -/
  | summand
deriving DecidableEq, Repr

namespace Role

def all : List Role := [.expression, .boolean, .number, .string, .null, .summand]

theorem mem_all (role : Role) : role ∈ all := by
  cases role <;> decide

/-- Whether an operand of this kind may stand in the place. An operand without a
kind is an expression and nothing more. -/
def accepts : Role → Option Kind → Bool
  | .expression, _ => true
  | _, none => false
  | _, some .any => true
  | .boolean, some .boolean => true
  | .number, some .number => true
  | .string, some .string => true
  | .null, some .null => true
  | .summand, some .number => true
  | .summand, some .string => true
  | _, some _ => false

end Role

def Comparison.role : Comparison → Role
  | .equal => .expression
  | .unequal => .expression
  | _ => .number

def BinaryOperator.role : BinaryOperator → Role
  | .compare comparison => comparison.role
  | .add => .summand
  | .compute _ => .number
  | .and => .boolean
  | .or => .boolean

end AccessRules
