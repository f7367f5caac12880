import AccessRules.Proofs.Expression.Flatten
import AccessRules.Proofs.Expression.Grammar

namespace AccessRules

/-! Everything that accessors and combinators can write is a sentence.

What a stage knows of its chain can be said of the flattened atoms alone. Variables
stand where an operand may follow, a value of which nothing is known is a sentence,
and every other stage ends in something that more can be asked of.
-/

open Grammar

variable {source target : Stage}

namespace Accessor

/-- The operand that an accessor places, if it places one. -/
def placed? : Accessor source target → Option Term
  | .evaluate operand => some operand.term
  | .scope operand => some operand.term
  | _ => none

end Accessor

mutual

/-- Operands that are written with literals, accessors and combinators alone. -/
inductive Composed : Term → Prop where
  | null : Composed .null
  | boolean (value : Bool) : Composed (.boolean value)
  | number (value : Binary64) : Composed (.number value)
  | string (value : String) : Composed (.string value)
  /-- A literal whose kind is not followed. -/
  | literal (scalar : Literal) : Composed (.plain (.literal scalar))
  | built {stage : Stage} {builder : Builder stage} {term : Term} (walked : Walked builder)
      (ended : builder.term? = some term) : Composed term
  | binary (operator : BinaryOperator) {left right : Operand operator.role}
      (first : Composed left.term) (second : Composed right.term) :
      Composed (Operation.binary operator left right).term
  | negate {operand : Operand .expression} (inner : Composed operand.term) :
      Composed (Operation.negate operand).term
  | not {operand : Operand .boolean} (inner : Composed operand.term) :
      Composed (Operation.not operand).term
  | ternary {condition : Operand .boolean} {whenTrue whenFalse : Operand .expression}
      (test : Composed condition.term) (first : Composed whenTrue.term)
      (second : Composed whenFalse.term) :
      Composed (Operation.ternary condition whenTrue whenFalse).term
  | scope {operand : Operand .expression} (inner : Composed operand.term) :
      Composed (Operation.scope operand).term

/-- Builders that accessors lead to from the start, with such operands placed. -/
inductive Walked : {stage : Stage} → Builder stage → Prop where
  | start : Walked Builder.start
  | step {source target : Stage} {builder : Builder source} (walked : Walked builder)
      (accessor : Accessor source target) (placed : ∀ term ∈ accessor.placed?, Composed term) :
      Walked (builder.step accessor)

end

/-- What the atoms of a chain are at a stage. -/
def Stage.Holds : Stage → List Atom → Prop
  | .variables => Opens
  | .value .any => Sentence
  | _ => Accessed

namespace Stage

variable {atoms : List Atom}

theorem holds_value (kind : Kind) (accessed : Accessed atoms) : (value kind).Holds atoms := by
  cases kind with
  | any => exact accessed.sentence
  | _ => exact accessed

theorem sentence_of_holds {stage : Stage} (ended : stage ≠ .variables)
    (holds : stage.Holds atoms) : Sentence atoms := by
  rcases stage with _ | _ | _ | _ | kind
  · contradiction
  · exact Accessed.sentence holds
  · exact Accessed.sentence holds
  · exact Accessed.sentence holds
  · cases kind with
    | any => exact holds
    | _ => exact Accessed.sentence holds

end Stage

/-- An accessor leads from what holds at its source to what holds at its target. -/
theorem Accessor.apply_holds (accessor : Accessor source target) (chain : Chain)
    (holds : source.Holds chain.flatten)
    (placed : ∀ term ∈ accessor.placed?, Sentence term.element.flatten) :
    target.Holds (accessor.apply chain).flatten := by
  rw [flatten_apply]
  cases accessor with
  | auth => exact Opens.member holds _
  | now => exact Opens.member holds _
  | snapshot origin => exact Opens.member holds _
  | unary operator => exact Opens.unary operator holds
  | evaluate operand => exact holds _ (placed _ rfl)
  | scope operand => exact holds _ (placed _ rfl).group
  | operate operator accepted =>
      exact (Stage.sentence_of_holds (by simp) holds).opens operator
  | claim field => exact Stage.holds_value _ (Accessed.member holds _)
  | read kind => exact Stage.holds_value _ (Accessed.member holds _)
  | priority => exact Stage.holds_value _ (Accessed.member holds _)
  | _ => exact Accessed.member holds _

theorem Builder.element_of_term? {stage : Stage} {builder : Builder stage} {term : Term}
    (ended : builder.term? = some term) :
    stage ≠ .variables ∧ term.element = .chain builder.chain := by
  cases stage <;> simp [term?] at ended <;> subst ended <;> exact ⟨by simp, rfl⟩

mutual

theorem Composed.sentence {term : Term} (composed : Composed term) :
    Sentence term.element.flatten := by
  match composed with
  | .null => exact .literal _
  | .boolean value => exact .literal _
  | .number value => exact .literal _
  | .string value => exact .literal _
  | .literal scalar => exact .literal _
  | .built walked ended =>
      obtain ⟨ended, same⟩ := Builder.element_of_term? ended
      rw [same]
      exact Stage.sentence_of_holds ended walked.holds
  | .binary operator first second =>
      rw [Operation.flatten_binary]
      exact first.sentence.binary operator second.sentence
  | .negate inner =>
      rw [Operation.flatten_negate]
      exact inner.sentence.unary .negate
  | .not inner =>
      rw [Operation.flatten_not]
      exact inner.sentence.unary .not
  | .ternary test first second =>
      rw [Operation.flatten_ternary]
      exact test.sentence.ternary first.sentence second.sentence
  | .scope inner =>
      rw [Operation.flatten_scope]
      exact inner.sentence.group

theorem Walked.holds {stage : Stage} {builder : Builder stage} (walked : Walked builder) :
    stage.Holds builder.chain.flatten := by
  match walked with
  | .start => exact Opens.nil
  | .step earlier accessor placed =>
      exact accessor.apply_holds _ earlier.holds fun term member => (placed term member).sentence

end

/-- Every operand that can be written is a sentence, and wherever variables wait, any
operand placed there completes one. -/
theorem composed_sentence :
    (∀ term, Composed term →
      Sentence term.element.flatten ∧ term.element.flatten ≠ []) ∧
    ∀ builder : Builder .variables, Walked builder →
      ∀ operand : Operand .expression, Composed operand.term →
        Sentence (builder.step (.evaluate operand)).chain.flatten := by
  refine ⟨?_, ?_⟩
  · intro term composed
    exact ⟨composed.sentence, composed.sentence.ne_nil⟩
  · intro builder walked operand composed
    have placed : ∀ term ∈ (Accessor.evaluate operand).placed?, Composed term := by
      intro term member
      cases member
      exact composed
    exact (walked.step (.evaluate operand) placed).holds

/-- A conditional as an operand, and the same conditional behind a comparison. -/
theorem composed_sentence_conditional :
    let conditional : Operand .expression :=
      (Operation.ternary ⟨.boolean true, rfl⟩ (Term.string "x").operand
        Term.null.operand).term.operand
    let builder : Builder .variables :=
      ((Builder.start.step .auth).step .uid).step (.operate (.compare .equal) rfl)
    Composed conditional.term ∧ Walked builder ∧
      Sentence conditional.term.element.flatten ∧ conditional.term.element.flatten ≠ [] ∧
      Sentence (builder.step (.evaluate conditional)).chain.flatten := by
  intro conditional builder
  have composed : Composed conditional.term :=
    .ternary (.boolean true) (.string "x") .null
  have nothing {source target : Stage} {accessor : Accessor source target}
      (absent : accessor.placed? = none) : ∀ term ∈ accessor.placed?, Composed term := by
    simp [absent]
  have walked : Walked builder :=
    ((Walked.start.step .auth (nothing rfl)).step .uid (nothing rfl)).step _ (nothing rfl)
  exact ⟨composed, walked, (composed_sentence.1 _ composed).1, (composed_sentence.1 _ composed).2,
    composed_sentence.2 builder walked conditional composed⟩

end AccessRules
