namespace AccessRules

/-! Operators and punctuation of the rule language.

Every token carries the blanks around it in its own text, so nothing else
decides about spacing. No precedence is recorded: grouping is always explicit.
-/

inductive Comparison where
  | equal
  | unequal
  | greater
  | greaterOrEqual
  | less
  | lessOrEqual
deriving DecidableEq, Repr

inductive Arithmetic where
  | subtract
  | multiply
  | divide
  | modulus
deriving DecidableEq, Repr

inductive BinaryOperator where
  | compare (comparison : Comparison)
  /-- Adds numbers and joins strings. -/
  | add
  | compute (arithmetic : Arithmetic)
  | and
  | or
deriving DecidableEq, Repr

inductive UnaryOperator where
  | negate
  | not
deriving DecidableEq, Repr

inductive Token where
  | unary (operator : UnaryOperator)
  | binary (operator : BinaryOperator)
  | question
  | colon
  | openGroup
  | closeGroup
deriving DecidableEq, Repr

def Comparison.text : Comparison → String
  | .equal => " === "
  | .unequal => " !== "
  | .greater => " > "
  | .greaterOrEqual => " >= "
  | .less => " < "
  | .lessOrEqual => " <= "

def Arithmetic.text : Arithmetic → String
  | .subtract => " - "
  | .multiply => " * "
  | .divide => " / "
  | .modulus => " % "

def BinaryOperator.text : BinaryOperator → String
  | .compare comparison => comparison.text
  | .add => " + "
  | .compute arithmetic => arithmetic.text
  | .and => " && "
  | .or => " || "

def UnaryOperator.text : UnaryOperator → String
  | .negate => "-"
  | .not => "!"

def Token.text : Token → String
  | .unary operator => operator.text
  | .binary operator => operator.text
  | .question => " ? "
  | .colon => " : "
  | .openGroup => "("
  | .closeGroup => ")"

namespace Token

def all : List Token :=
  [.unary .negate, .unary .not, .binary .add, .binary (.compute .subtract),
   .binary (.compute .multiply), .binary (.compute .divide), .binary (.compute .modulus),
   .binary (.compare .equal), .binary (.compare .unequal), .binary (.compare .greater),
   .binary (.compare .greaterOrEqual), .binary (.compare .less), .binary (.compare .lessOrEqual),
   .binary .and, .binary .or, .question, .colon, .openGroup, .closeGroup]

theorem mem_all (token : Token) : token ∈ all := by
  rcases token with (_ | _) | (comparison | _ | arithmetic | _ | _) | _ | _ | _ | _
  case binary.compare => cases comparison <;> decide
  case binary.compute => cases arithmetic <;> decide
  all_goals decide

private theorem texts_distinct :
    ∀ left ∈ all, ∀ right ∈ all, left.text = right.text → left = right := by
  decide

/-- Tokens are told apart by their texts. -/
theorem text_injective {left right : Token} (same : left.text = right.text) : left = right :=
  texts_distinct left (mem_all left) right (mem_all right) same

end Token

end AccessRules
