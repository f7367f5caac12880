import AccessRules.Operand

namespace AccessRules

/-! Combinators of a fixed number of operands.

Each one writes its operands and tokens in order. Nothing is reordered and no
group is added: whoever needs parentheses asks for `scope`.
-/

/-- The result of a combinator. Its kind is not followed, so it may fill every role. -/
structure Operation where
  chain : Chain

namespace Operation

def term (operation : Operation) : Term := ⟨.chain operation.chain, some .any⟩

theorem accepted (operation : Operation) (role : Role) :
    role.accepts operation.term.kind = true := by
  cases role <;> rfl

def binary (operator : BinaryOperator) (left right : Operand operator.role) : Operation :=
  ⟨[left.element, .token (.binary operator), right.element]⟩

def negate (operand : Operand .expression) : Operation :=
  ⟨[.token (.unary .negate), operand.element]⟩

def not (operand : Operand .boolean) : Operation :=
  ⟨[.token (.unary .not), operand.element]⟩

def ternary (condition : Operand .boolean) (whenTrue whenFalse : Operand .expression) : Operation :=
  ⟨[condition.element, .token .question, whenTrue.element, .token .colon, whenFalse.element]⟩

def scope (operand : Operand .expression) : Operation :=
  ⟨[.token .openGroup, operand.element, .token .closeGroup]⟩

end Operation

end AccessRules
