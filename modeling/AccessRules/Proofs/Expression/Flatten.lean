import AccessRules.Accessor
import AccessRules.Operation

namespace AccessRules

variable {source target : Stage}

namespace Accessor

/-- The atoms that an accessor adds. -/
def atoms : Accessor source target → List Atom
  | .auth => [.member "auth"]
  | .now => [.member "now"]
  | .snapshot origin => [.member origin.name]
  | .unary operator => [.token (.unary operator)]
  | .evaluate operand => operand.element.flatten
  | .scope operand => .token .openGroup :: (operand.element.flatten ++ [.token .closeGroup])
  | .provider => [.member "provider"]
  | .uid => [.member "uid"]
  | .token => [.member "token"]
  | .claim field => [.member field.text]
  | .read _ => [.member "val()"]
  | .child path => [.member ("child(" ++ path.text ++ ")")]
  | .parent => [.member "parent()"]
  | .hasChild path => [.member ("hasChild(" ++ path.text ++ ")")]
  | .hasEvery paths => [.member ("hasChildren(" ++ pathList paths ++ ")")]
  | .ask query => [.member (query.name ++ "()")]
  | .priority => [.member "getPriority()"]
  | .operate operator _ => [.token (.binary operator)]
  | .length => [.member "length"]
  | .search query argument => [.member (query.name ++ "(" ++ quoteArgument argument ++ ")")]
  | .replace substring replacement =>
      [.member ("replace(" ++ (quoteArgument substring ++ "," ++ quoteArgument replacement) ++ ")")]
  | .changeCase letterCase => [.member (letterCase.name ++ "()")]
  | .matchPattern pattern => [.member ("matches(" ++ pattern ++ ")")]

private theorem call_nothing (name : String) : name ++ "(" ++ ")" = name ++ "()" := by
  rw [String.append_assoc]
  rfl

theorem flatten_apply (accessor : Accessor source target) (chain : Chain) :
    (accessor.apply chain).flatten = chain.flatten ++ accessor.atoms := by
  cases accessor <;>
    simp [apply, atoms, Chain.flatten_branch, Chain.flatten_extend, Element.flatten,
      Element.member, Element.token, Element.call, call_nothing]

end Accessor

namespace Operation

theorem flatten_binary (operator : BinaryOperator) (left right : Operand operator.role) :
    (binary operator left right).term.element.flatten =
      left.element.flatten ++ .token (.binary operator) :: right.element.flatten := by
  simp [binary, term, Element.flatten, Element.flattenAll, Element.token]

theorem flatten_negate (operand : Operand .expression) :
    (negate operand).term.element.flatten =
      .token (.unary .negate) :: operand.element.flatten := by
  simp [negate, term, Element.flatten, Element.flattenAll, Element.token]

theorem flatten_not (operand : Operand .boolean) :
    (not operand).term.element.flatten = .token (.unary .not) :: operand.element.flatten := by
  simp [not, term, Element.flatten, Element.flattenAll, Element.token]

theorem flatten_ternary (condition : Operand .boolean)
    (whenTrue whenFalse : Operand .expression) :
    (ternary condition whenTrue whenFalse).term.element.flatten =
      condition.element.flatten ++ .token .question ::
        (whenTrue.element.flatten ++ .token .colon :: whenFalse.element.flatten) := by
  simp [ternary, term, Element.flatten, Element.flattenAll, Element.token]

theorem flatten_scope (operand : Operand .expression) :
    (scope operand).term.element.flatten =
      .token .openGroup :: (operand.element.flatten ++ [.token .closeGroup]) := by
  simp [scope, term, Element.flatten, Element.flattenAll, Element.token]

end Operation

end AccessRules
