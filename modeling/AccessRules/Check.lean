import AccessRules.Operand

namespace AccessRules

structure Check where
  chain : Chain

namespace Check

inductive Step where
  | condition (operand : Operand .expression)
  | and
  | or
  | not
  | compare (comparison : Comparison) (left : Operand .expression)
      (right : Operand comparison.role)
  | ternary (test whenTrue whenFalse : Operand .expression)

def Step.elements : Step → List Element
  | .condition operand => [operand.element]
  | .and => [.token (.binary .and)]
  | .or => [.token (.binary .or)]
  | .not => [.token (.unary .not)]
  | .compare comparison left right =>
      [left.element, .token (.binary (.compare comparison)), right.element]
  | .ternary test whenTrue whenFalse =>
      [test.element, .token .question, whenTrue.element, .token .colon, whenFalse.element]

def empty : Check := ⟨[]⟩

/-- Whether no step has been taken. An operand without atoms counts as a step. -/
def isEmpty (check : Check) : Bool := check.chain.isEmpty

def push (check : Check) (step : Step) : Check := ⟨check.chain ++ step.elements⟩

/-- A check may only stand where any expression may. -/
def term (check : Check) : Term := .plain (.chain check.chain)

theorem flatten_push (check : Check) (step : Step) :
    (check.push step).chain.flatten = check.chain.flatten ++ Element.flattenAll step.elements :=
  Element.flattenAll_append _ _

end Check

end AccessRules
