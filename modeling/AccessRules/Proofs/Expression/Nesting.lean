import AccessRules.Proofs.Expression.Flatten

namespace AccessRules

/-! Combinators nested in any way.

A dot joins two members that stand side by side, and the atoms of an operand stand among
those of whatever is around it. But every operand starts where its combinator starts or
behind a token, and ends where its combinator ends or before one. So no operand meets
another, whatever it starts or ends with.
-/

namespace Operation

theorem text_binary (operator : BinaryOperator) (left right : Operand operator.role) :
    (binary operator left right).chain.text =
      left.element.text ++ operator.text ++ right.element.text := by
  have atoms : (binary operator left right).chain.flatten = _ := flatten_binary operator left right
  rw [Chain.text, atoms, Atom.write_token]
  rfl

theorem text_negate (operand : Operand .expression) :
    (negate operand).chain.text = UnaryOperator.negate.text ++ operand.element.text := by
  have atoms : (negate operand).chain.flatten = [] ++ _ := flatten_negate operand
  rw [Chain.text, atoms, Atom.write_token]
  rfl

theorem text_not (operand : Operand .boolean) :
    (not operand).chain.text = UnaryOperator.not.text ++ operand.element.text := by
  have atoms : (not operand).chain.flatten = [] ++ _ := flatten_not operand
  rw [Chain.text, atoms, Atom.write_token]
  rfl

theorem text_ternary (condition : Operand .boolean) (whenTrue whenFalse : Operand .expression) :
    (ternary condition whenTrue whenFalse).chain.text =
      condition.element.text ++ Token.question.text ++
        (whenTrue.element.text ++ Token.colon.text ++ whenFalse.element.text) := by
  have atoms : (ternary condition whenTrue whenFalse).chain.flatten = _ :=
    flatten_ternary condition whenTrue whenFalse
  rw [Chain.text, atoms, Atom.write_token, Atom.write_token]
  rfl

theorem text_scope (operand : Operand .expression) :
    (scope operand).chain.text =
      Token.openGroup.text ++ (operand.element.text ++ Token.closeGroup.text) := by
  have atoms : (scope operand).chain.flatten = [] ++ _ := flatten_scope operand
  rw [Chain.text, atoms, Atom.write_token, Atom.write_token]
  simp [Atom.write, Operand.element, Element.text]

end Operation

/-- Combinators over operands of any kind. An operand that is not looked into is a leaf. -/
inductive Nesting : Term → Type where
  | leaf (term : Term) : Nesting term
  | binary (operator : BinaryOperator) {left right : Operand operator.role}
      (first : Nesting left.term) (second : Nesting right.term) :
      Nesting (Operation.binary operator left right).term
  | negate {operand : Operand .expression} (inner : Nesting operand.term) :
      Nesting (Operation.negate operand).term
  | not {operand : Operand .boolean} (inner : Nesting operand.term) :
      Nesting (Operation.not operand).term
  | ternary {condition : Operand .boolean} {whenTrue whenFalse : Operand .expression}
      (test : Nesting condition.term) (first : Nesting whenTrue.term)
      (second : Nesting whenFalse.term) :
      Nesting (Operation.ternary condition whenTrue whenFalse).term
  | scope {operand : Operand .expression} (inner : Nesting operand.term) :
      Nesting (Operation.scope operand).term

namespace Nesting

def texts : {term : Term} → Nesting term → List String
  | _, leaf term => [term.element.text]
  | _, binary operator first second => first.texts ++ operator.text :: second.texts
  | _, negate inner => UnaryOperator.negate.text :: inner.texts
  | _, not inner => UnaryOperator.not.text :: inner.texts
  | _, ternary test first second =>
      test.texts ++ Token.question.text :: (first.texts ++ Token.colon.text :: second.texts)
  | _, scope inner => Token.openGroup.text :: (inner.texts ++ [Token.closeGroup.text])

theorem text_eq_join_texts {term : Term} (nesting : Nesting term) :
    term.element.text = String.join nesting.texts := by
  induction nesting with
  | leaf term => simp [texts]
  | binary operator first second left right =>
      calc (Operation.binary operator _ _).term.element.text
          = _ := Operation.text_binary operator _ _
        _ = String.join (binary operator first second).texts := by
            simp [texts, Operand.element, left, right, String.append_assoc]
  | negate inner ih =>
      calc (Operation.negate _).term.element.text
          = _ := Operation.text_negate _
        _ = String.join (negate inner).texts := by simp [texts, Operand.element, ih]
  | not inner ih =>
      calc (Operation.not _).term.element.text
          = _ := Operation.text_not _
        _ = String.join (not inner).texts := by simp [texts, Operand.element, ih]
  | ternary test first second condition left right =>
      calc (Operation.ternary _ _ _).term.element.text
          = _ := Operation.text_ternary _ _ _
        _ = String.join (ternary test first second).texts := by
            simp [texts, Operand.element, condition, left, right, String.append_assoc]
  | scope inner ih =>
      calc (Operation.scope _).term.element.text
          = _ := Operation.text_scope _
        _ = String.join (scope inner).texts := by simp [texts, Operand.element, ih]

end Nesting

/-- A combinator with the place of one operand left open, under what the place asks for. -/
inductive Layer : Role → Type where
  | before (operator : BinaryOperator) (right : Operand operator.role) : Layer operator.role
  | behind (operator : BinaryOperator) (left : Operand operator.role) : Layer operator.role
  | negate : Layer .expression
  | not : Layer .boolean
  | condition (first second : Operand .expression) : Layer .boolean
  | whenTrue (test : Operand .boolean) (second : Operand .expression) : Layer .expression
  | whenFalse (test : Operand .boolean) (first : Operand .expression) : Layer .expression
  | scope : Layer .expression

namespace Layer

variable {role : Role}

def fill : {role : Role} → Layer role → Operand role → Operation
  | _, before operator right, operand => .binary operator operand right
  | _, behind operator left, operand => .binary operator left operand
  | _, negate, operand => .negate operand
  | _, not, operand => .not operand
  | _, condition first second, operand => .ternary operand first second
  | _, whenTrue test second, operand => .ternary test operand second
  | _, whenFalse test first, operand => .ternary test first operand
  | _, scope, operand => .scope operand

def front : Layer role → String
  | before _ _ => ""
  | behind operator left => left.element.text ++ operator.text
  | negate => UnaryOperator.negate.text
  | not => UnaryOperator.not.text
  | condition _ _ => ""
  | whenTrue test _ => test.element.text ++ Token.question.text
  | whenFalse test first =>
      test.element.text ++ Token.question.text ++ first.element.text ++ Token.colon.text
  | scope => Token.openGroup.text

def back : Layer role → String
  | before operator right => operator.text ++ right.element.text
  | condition first second =>
      Token.question.text ++ first.element.text ++ Token.colon.text ++ second.element.text
  | whenTrue _ second => Token.colon.text ++ second.element.text
  | scope => Token.closeGroup.text
  | _ => ""

theorem text_fill (layer : Layer role) (operand : Operand role) :
    (layer.fill operand).chain.text = layer.front ++ operand.element.text ++ layer.back := by
  cases layer with
  | before operator right =>
      rw [fill, Operation.text_binary]
      simp [front, back, String.append_assoc]
  | behind operator left =>
      rw [fill, Operation.text_binary]
      simp [front, back]
  | negate =>
      rw [fill, Operation.text_negate]
      simp [front, back]
  | not =>
      rw [fill, Operation.text_not]
      simp [front, back]
  | condition first second =>
      rw [fill, Operation.text_ternary]
      simp [front, back, String.append_assoc]
  | whenTrue test second =>
      rw [fill, Operation.text_ternary]
      simp [front, back, String.append_assoc]
  | whenFalse test first =>
      rw [fill, Operation.text_ternary]
      simp [front, back, String.append_assoc]
  | scope =>
      rw [fill, Operation.text_scope]
      simp [front, back, String.append_assoc]

end Layer

/-- Layers around one open place, at least one of them. -/
inductive Context : Role → Type where
  | innermost {role : Role} (layer : Layer role) : Context role
  | around {role outer : Role} (layer : Layer outer) (inside : Context role) : Context role

namespace Context

variable {role : Role}

/-- The operation inside may stand in every place of the layer around it. -/
def fill : Context role → Operand role → Operation
  | innermost layer, operand => layer.fill operand
  | around layer inside, operand =>
      layer.fill ⟨(inside.fill operand).term, (inside.fill operand).accepted _⟩

def front : Context role → String
  | innermost layer => layer.front
  | around layer inside => layer.front ++ inside.front

def back : Context role → String
  | innermost layer => layer.back
  | around layer inside => inside.back ++ layer.back

theorem text_fill (context : Context role) (operand : Operand role) :
    (context.fill operand).chain.text =
      context.front ++ operand.element.text ++ context.back := by
  induction context with
  | innermost layer => exact layer.text_fill operand
  | around layer inside ih =>
      let filled := inside.fill operand
      calc (fill (around layer inside) operand).chain.text
          = layer.front ++ filled.chain.text ++ layer.back :=
            layer.text_fill ⟨filled.term, filled.accepted _⟩
        _ = front (around layer inside) ++ operand.element.text ++ back (around layer inside) := by
            simp [filled, ih, front, back, String.append_assoc]

end Context

/-- Combinators write their operands and tokens in order and nothing else. In every place of
any nesting an operand keeps its text, and what stands around it is the same for all. -/
theorem combinators_concatenate :
    (∀ (term : Term) (nesting : Nesting term),
      term.element.text = String.join nesting.texts) ∧
    ∀ (role : Role) (context : Context role) (operand : Operand role),
      (context.fill operand).chain.text =
        context.front ++ operand.element.text ++ context.back := by
  constructor
  · intro term nesting
    exact nesting.text_eq_join_texts
  · intro role context operand
    exact context.text_fill operand

end AccessRules
