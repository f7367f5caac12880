import AccessRules.Check
import AccessRules.Proofs.Expression.Flatten

namespace AccessRules

inductive Word where
  | operand (term : Term)
  | binary (operator : BinaryOperator)
  | not

def Word.atoms : Word → List Atom
  | .operand term => term.element.flatten
  | .binary operator => [.token (.binary operator)]
  | .not => [.token (.unary .not)]

/-- The words of operands in a row with an operator in front of all but the first. -/
def phrase (first : Term) (rest : List (BinaryOperator × Term)) : List Word :=
  .operand first :: rest.flatMap fun joined => [.binary joined.1, .operand joined.2]

/-- The words of an operand in order, where combinators may be nested in any way. An operand
that is not looked into is a word of its own. -/
inductive Combined : Term → List Word → Prop where
  | operand (term : Term) : Combined term [.operand term]
  | binary (operator : BinaryOperator) (left right : Operand operator.role)
      {first second : List Word} (before : Combined left.term first)
      (behind : Combined right.term second) :
      Combined (Operation.binary operator left right).term
        (first ++ .binary operator :: second)
  | not (operand : Operand .boolean) {words : List Word}
      (inner : Combined operand.term words) :
      Combined (Operation.not operand).term (.not :: words)

theorem Combined.flatten_eq {term : Term} {words : List Word} (combined : Combined term words) :
    term.element.flatten = words.flatMap Word.atoms := by
  induction combined with
  | operand term => simp [Word.atoms]
  | binary operator left right before behind first second =>
      rw [Operation.flatten_binary, Operand.element, Operand.element, first, second]
      simp [Word.atoms]
  | not operand inner ih =>
      rw [Operation.flatten_not, Operand.element, ih]
      rfl

/-- The words of a walk that places operands, with operators between them and any number of
negations in front. -/
inductive Spoken : {stage : Stage} → Builder stage → List Word → Prop where
  | start : Spoken Builder.start []
  | not {builder : Builder .variables} {words : List Word} (spoken : Spoken builder words) :
      Spoken (builder.step (.unary .not)) (words ++ [.not])
  | evaluate {builder : Builder .variables} {words : List Word} (spoken : Spoken builder words)
      (operand : Operand .expression) {inner : List Word}
      (combined : Combined operand.term inner) :
      Spoken (builder.step (.evaluate operand)) (words ++ inner)
  | operate {kind : Kind} {builder : Builder (.value kind)} {words : List Word}
      (spoken : Spoken builder words) (operator : BinaryOperator)
      (accepted : operator.role.accepts (some kind) = true) :
      Spoken (builder.step (.operate operator accepted)) (words ++ [.binary operator])

theorem Spoken.flatten_eq {stage : Stage} {builder : Builder stage} {words : List Word}
    (spoken : Spoken builder words) : builder.chain.flatten = words.flatMap Word.atoms := by
  induction spoken with
  | start => rfl
  | not spoken ih =>
      rw [Builder.step, Accessor.flatten_apply, ih, List.flatMap_append]
      rfl
  | evaluate spoken operand combined ih =>
      rw [Builder.step, Accessor.flatten_apply, ih, List.flatMap_append, ← combined.flatten_eq]
      rfl
  | operate spoken operator accepted ih =>
      rw [Builder.step, Accessor.flatten_apply, ih, List.flatMap_append]
      rfl

theorem Role.accepts_any (role : Role) : role.accepts (some .any) = true := by
  cases role <;> rfl

namespace Builder

/-- The walk that goes on with operands, each behind an operator. -/
def continued (builder : Builder (.value .any)) :
    List (BinaryOperator × Term) → Builder (.value .any)
  | [] => builder
  | (operator, term) :: rest =>
      ((builder.step (.operate operator (Role.accepts_any _))).step
        (.evaluate term.operand)).continued rest

/-- The walk that places operands one after the other. -/
def inOrder (first : Term) (rest : List (BinaryOperator × Term)) : Builder (.value .any) :=
  (start.step (.evaluate first.operand)).continued rest

end Builder

theorem Spoken.continued {builder : Builder (.value .any)} {words : List Word}
    (spoken : Spoken builder words) (rest : List (BinaryOperator × Term)) :
    Spoken (builder.continued rest)
      (words ++ rest.flatMap fun joined => [.binary joined.1, .operand joined.2]) := by
  induction rest generalizing builder words with
  | nil => simpa [Builder.continued] using spoken
  | cons joined rest ih =>
      obtain ⟨operator, term⟩ := joined
      have operated := spoken.operate operator (Role.accepts_any _)
      have placed := operated.evaluate term.operand (.operand term)
      have later := ih placed
      simpa [Builder.continued] using later

theorem Spoken.inOrder (first : Term) (rest : List (BinaryOperator × Term)) :
    Spoken (Builder.inOrder first rest) (phrase first rest) :=
  (Spoken.start.evaluate first.operand (.operand first)).continued rest

/-- The words of a check, where each step may be given in any of its forms. -/
inductive Checked : Check → List Word → Prop where
  | empty : Checked .empty []
  | condition {check : Check} {words : List Word} (checked : Checked check words)
      (operand : Operand .expression) {inner : List Word}
      (combined : Combined operand.term inner) :
      Checked (check.push (.condition operand)) (words ++ inner)
  | and {check : Check} {words : List Word} (checked : Checked check words) :
      Checked (check.push .and) (words ++ [.binary .and])
  | or {check : Check} {words : List Word} (checked : Checked check words) :
      Checked (check.push .or) (words ++ [.binary .or])
  | not {check : Check} {words : List Word} (checked : Checked check words) :
      Checked (check.push .not) (words ++ [.not])
  | compare {check : Check} {words : List Word} (checked : Checked check words)
      (comparison : Comparison) (left : Operand .expression) (right : Operand comparison.role)
      {first second : List Word} (before : Combined left.term first)
      (behind : Combined right.term second) :
      Checked (check.push (.compare comparison left right))
        (words ++ (first ++ .binary (.compare comparison) :: second))

theorem Checked.flatten_eq {check : Check} {words : List Word} (checked : Checked check words) :
    check.chain.flatten = words.flatMap Word.atoms := by
  induction checked with
  | empty => rfl
  | condition checked operand combined ih =>
      rw [Check.flatten_push, ih, List.flatMap_append, ← combined.flatten_eq]
      simp [Check.Step.elements, Element.flattenAll, Operand.element]
  | compare checked comparison left right before behind ih =>
      rw [Check.flatten_push, ih, List.flatMap_append, List.flatMap_append, List.flatMap_cons,
        ← before.flatten_eq, ← behind.flatten_eq]
      simp [Check.Step.elements, Element.flattenAll, Element.flatten, Element.token, Word.atoms,
        Operand.element]
  | _ checked ih =>
      rw [Check.flatten_push, ih, List.flatMap_append]
      rfl

namespace Check

inductive Connective where
  | and
  | or

def Connective.operator : Connective → BinaryOperator
  | .and => .and
  | .or => .or

def Connective.step : Connective → Step
  | .and => .and
  | .or => .or

/-- The check that goes on with conditions, each behind an operator. -/
def continued (check : Check) : List (Connective × Term) → Check
  | [] => check
  | (connective, term) :: rest =>
      ((check.push connective.step).push (.condition term.operand)).continued rest

/-- The check that pushes conditions one after the other. -/
def inOrder (first : Term) (rest : List (Connective × Term)) : Check :=
  (empty.push (.condition first.operand)).continued rest

end Check

theorem Checked.connect {check : Check} {words : List Word} (checked : Checked check words)
    (connective : Check.Connective) :
    Checked (check.push connective.step) (words ++ [.binary connective.operator]) := by
  cases connective with
  | and => exact checked.and
  | or => exact checked.or

theorem Checked.continued {check : Check} {words : List Word} (checked : Checked check words)
    (rest : List (Check.Connective × Term)) :
    Checked (check.continued rest)
      (words ++ (rest.map fun joined => (joined.1.operator, joined.2)).flatMap
        fun joined => [.binary joined.1, .operand joined.2]) := by
  induction rest generalizing check words with
  | nil => simpa [Check.continued] using checked
  | cons joined rest ih =>
      obtain ⟨connective, term⟩ := joined
      have connected := checked.connect connective
      have pushed := connected.condition term.operand (.operand term)
      have later := ih pushed
      simpa [Check.continued] using later

theorem Checked.inOrder (first : Term) (rest : List (Check.Connective × Term)) :
    Checked (Check.inOrder first rest)
      (phrase first (rest.map fun joined => (joined.1.operator, joined.2))) :=
  (Checked.empty.condition first.operand (.operand first)).continued rest

/-- The expressions that are spelled with these words. -/
inductive Spelled (words : List Word) : Element → Prop where
  | combined {term : Term} (made : Combined term words) : Spelled words term.element
  | spoken {builder : Builder (.value .any)} (made : Spoken builder words) :
      Spelled words (.chain builder.chain)
  | checked {check : Check} (made : Checked check words) : Spelled words (.chain check.chain)

theorem Spelled.flatten_eq {words : List Word} {element : Element}
    (spelled : Spelled words element) : element.flatten = words.flatMap Word.atoms := by
  cases spelled with
  | combined made => exact made.flatten_eq
  | spoken made => exact made.flatten_eq
  | checked made => exact made.flatten_eq

theorem flatMap_atoms_phrase (first : Term) (rest : List (BinaryOperator × Term)) :
    (phrase first rest).flatMap Word.atoms =
      first.element.flatten ++
        rest.flatMap fun joined =>
          .token (.binary joined.1) :: joined.2.element.flatten := by
  rw [phrase, List.flatMap_cons, List.flatMap_assoc]
  simp [Word.atoms]

/-- However an expression is spelled, its operands and operators are written in their order
and nothing else is. A walk, every nesting of combinators around the same operands, and a
check whose operators all are connectives come to one text. So does every other expression
spelled with the same words, where a comparison may be a step of a check or a condition,
and a negation a step of its own or part of the operand behind it. -/
theorem spellings_agree :
    (∀ (first : Term) (rest : List (BinaryOperator × Term)) (element : Element),
      Spelled (phrase first rest) element →
        element.flatten =
            first.element.flatten ++
              (rest.flatMap fun joined =>
                .token (.binary joined.1) :: joined.2.element.flatten) ∧
          element.text = (Builder.inOrder first rest).chain.text) ∧
    (∀ (first : Term) (rest : List (BinaryOperator × Term)),
      Spelled (phrase first rest) (.chain (Builder.inOrder first rest).chain)) ∧
    (∀ (first : Term) (rest : List (Check.Connective × Term)),
      Spelled (phrase first (rest.map fun joined => (joined.1.operator, joined.2)))
        (.chain (Check.inOrder first rest).chain)) ∧
    ∀ (words : List Word) (left right : Element), Spelled words left → Spelled words right →
      left.flatten = right.flatten ∧ left.text = right.text := by
  have agree : ∀ (words : List Word) (left right : Element), Spelled words left →
      Spelled words right → left.flatten = right.flatten ∧ left.text = right.text := by
    intro words left right first second
    have same : left.flatten = right.flatten := first.flatten_eq.trans second.flatten_eq.symm
    exact ⟨same, by rw [Element.text, Element.text, same]⟩
  have walked (first : Term) (rest : List (BinaryOperator × Term)) :
      Spelled (phrase first rest) (.chain (Builder.inOrder first rest).chain) :=
    .spoken (.inOrder first rest)
  refine ⟨?_, walked, fun first rest => .checked (.inOrder first rest), agree⟩
  intro first rest element spelled
  refine ⟨?_, (agree _ _ _ spelled (walked first rest)).2⟩
  rw [spelled.flatten_eq, flatMap_atoms_phrase]

/-- `a > b && !c` as a nesting of combinators, as a walk and as a check. -/
theorem spellings_agree_negated :
    let a : Term := ⟨.chain [.member "data", .call "val" ""], some .any⟩
    let b : Term := ⟨.chain [.member "root", .call "val" ""], some .any⟩
    let c : Term := ⟨.member "c", some .any⟩
    let words : List Word :=
      [.operand a, .binary (.compare .greater), .operand b, .binary .and, .not, .operand c]
    let nested := (Operation.binary .and
      ⟨(Operation.binary (.compare .greater) ⟨a, rfl⟩ ⟨b, rfl⟩).term, rfl⟩
      ⟨(Operation.not ⟨c, rfl⟩).term, rfl⟩).term.element
    let walk := ((((((Builder.start.step (.evaluate a.operand)).step
      (.operate (.compare .greater) rfl)).step (.evaluate b.operand)).step
      (.operate .and rfl)).step (.unary .not)).step (.evaluate c.operand))
    let check := (((Check.empty.push (.compare .greater a.operand ⟨b, rfl⟩)).push .and).push
      .not).push (.condition c.operand)
    Spelled words nested ∧ Spelled words (.chain walk.chain) ∧
      Spelled words (.chain check.chain) ∧
      nested.text = (Element.chain walk.chain).text ∧
      nested.text = (Element.chain check.chain).text := by
  intro a b c words nested walk check
  have combined : Spelled words nested := by
    have compared := Combined.binary (.compare .greater) ⟨a, rfl⟩ ⟨b, rfl⟩ (.operand a) (.operand b)
    have negated := Combined.not ⟨c, rfl⟩ (.operand c)
    exact .combined (.binary .and ⟨_, rfl⟩ ⟨_, rfl⟩ compared negated)
  have spoken : Spelled words (.chain walk.chain) := by
    have first := Spoken.start.evaluate a.operand (.operand a)
    have second := (first.operate (.compare .greater) rfl).evaluate b.operand (.operand b)
    have negated := (second.operate .and rfl).not
    exact .spoken (negated.evaluate c.operand (.operand c))
  have checked : Spelled words (.chain check.chain) := by
    have compared := Checked.empty.compare .greater a.operand ⟨b, rfl⟩ (.operand a) (.operand b)
    exact .checked (compared.and.not.condition c.operand (.operand c))
  obtain ⟨_, _, _, agree⟩ := spellings_agree
  exact ⟨combined, spoken, checked, (agree _ _ _ combined spoken).2,
    (agree _ _ _ combined checked).2⟩

end AccessRules
