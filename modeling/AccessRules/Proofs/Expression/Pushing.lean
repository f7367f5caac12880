import AccessRules.Check
import AccessRules.Proofs.Expression.Nesting
import AccessRules.Proofs.Expression.Walk
import Mathlib.Data.List.Chain

namespace AccessRules

namespace Atom

/-- Whether the last atom of a list is joined to the first one of the list behind it. -/
def meet (before behind : List Atom) : Bool :=
  before.getLast?.any isMember && behind.head?.any isMember

theorem endsInMember_eq_getLast? (afterMember : Bool) (atoms : List Atom) :
    endsInMember afterMember atoms = (atoms.getLast?.map isMember).getD afterMember := by
  induction atoms generalizing afterMember with
  | nil => rfl
  | cons atom rest ih =>
      rw [endsInMember, ih, List.getLast?_cons]
      cases rest.getLast? <;> rfl

/-- Each of two lists is written as it is on its own, with a dot between them where they meet. -/
theorem write_append_eq_meet (left right : List Atom) :
    write false (left ++ right) =
      write false left ++ (if meet left right then "." else "") ++ write false right := by
  have ended : endsInMember false left = left.getLast?.any isMember := by
    rw [endsInMember_eq_getLast?]
    cases left.getLast? <;> rfl
  rw [write_append, ended]
  cases right with
  | nil => simp [write, meet]
  | cons atom rest => simp [write, meet, String.append_assoc]

end Atom

namespace Check

namespace Step

def atoms (step : Step) : List Atom := Element.flattenAll step.elements

def text : Step → String
  | condition operand => operand.element.text
  | and => BinaryOperator.and.text
  | or => BinaryOperator.or.text
  | not => UnaryOperator.not.text
  | compare comparison left right => left.element.text ++ comparison.text ++ right.element.text
  | ternary test whenTrue whenFalse =>
      test.element.text ++ Token.question.text ++ whenTrue.element.text ++ Token.colon.text ++
        whenFalse.element.text

def pushesOperand : Step → Bool
  | and | or | not => false
  | _ => true

theorem write_atoms (step : Step) : Atom.write false step.atoms = step.text := by
  cases step with
  | condition operand => simp [atoms, text, elements, Element.flattenAll, Element.text]
  | compare comparison left right =>
      have split : (compare comparison left right).atoms =
          left.element.flatten ++ .token (.binary (.compare comparison)) ::
            right.element.flatten := by
        simp [atoms, elements, Element.flattenAll, Element.flatten, Element.token]
      rw [split, Atom.write_token]
      rfl
  | ternary test whenTrue whenFalse =>
      have split : (ternary test whenTrue whenFalse).atoms =
          (test.element.flatten ++ .token .question :: whenTrue.element.flatten) ++
            .token .colon :: whenFalse.element.flatten := by
        simp [atoms, elements, Element.flattenAll, Element.flatten, Element.token]
      rw [split, Atom.write_token, Atom.write_token]
      rfl
  | and | or | not => rfl

/-- Of two steps side by side one at least pushes no operand. -/
def Apart (first second : Step) : Prop := ¬ (first.pushesOperand ∧ second.pushesOperand)

theorem atoms_of_not_pushesOperand {step : Step} (bare : step.pushesOperand = false) :
    ∃ symbol, step.atoms = [.token symbol] := by
  cases step with
  | and | or | not => exact ⟨_, rfl⟩
  | _ => contradiction

theorem Apart.meet_eq_false {first second : Step} (apart : Apart first second)
    (pushed : List Atom) : Atom.meet (pushed ++ first.atoms) second.atoms = false := by
  by_cases bare : first.pushesOperand = false
  · obtain ⟨symbol, alone⟩ := atoms_of_not_pushesOperand bare
    simp [Atom.meet, alone, Atom.isMember]
  · have other : second.pushesOperand = false := by simpa [Apart, bare] using apart
    obtain ⟨symbol, alone⟩ := atoms_of_not_pushesOperand other
    simp [Atom.meet, alone, Atom.isMember]

end Step

def ofSteps (steps : List Step) : Check := steps.foldl push empty

/-- The texts of steps in a row behind the atoms pushed so far, with a dot in front of each
step that meets these. -/
def textsBehind : List Atom → List Step → List String
  | _, [] => []
  | pushed, step :: rest =>
      (if Atom.meet pushed step.atoms then "." else "") :: step.text ::
        textsBehind (pushed ++ step.atoms) rest

theorem text_foldl_push (check : Check) (steps : List Step) :
    (steps.foldl push check).chain.text =
      check.chain.text ++ String.join (textsBehind check.chain.flatten steps) := by
  induction steps generalizing check with
  | nil => simp [textsBehind]
  | cons step rest ih =>
      have pushed : (check.push step).chain.flatten = check.chain.flatten ++ step.atoms :=
        check.flatten_push step
      calc (rest.foldl push (check.push step)).chain.text
          = (check.push step).chain.text ++
              String.join (textsBehind (check.push step).chain.flatten rest) := ih _
        _ = check.chain.text ++ String.join (textsBehind check.chain.flatten (step :: rest)) := by
            rw [Chain.text, pushed, Atom.write_append_eq_meet, step.write_atoms]
            simp [textsBehind, Chain.text, String.append_assoc]

theorem join_textsBehind_of_apart {pushed : List Atom} {steps : List Step}
    (free : ∀ first ∈ steps.head?, Atom.meet pushed first.atoms = false)
    (apart : steps.IsChain Step.Apart) :
    String.join (textsBehind pushed steps) = String.join (steps.map Step.text) := by
  induction steps generalizing pushed with
  | nil => rfl
  | cons step rest ih =>
      obtain ⟨beside, behind⟩ := List.isChain_cons.mp apart
      have later : String.join (textsBehind (pushed ++ step.atoms) rest) =
          String.join (rest.map Step.text) := by
        apply ih _ behind
        intro second member
        exact (beside second member).meet_eq_false pushed
      simp [textsBehind, free step rfl, later]

end Check

/-- Accessors in a row that go on from a stage. -/
inductive Onward : Stage → Stage → Type where
  | stay {stage : Stage} : Onward stage stage
  | step {source middle target : Stage} (onward : Onward source middle)
      (accessor : Accessor middle target) : Onward source target

namespace Onward

def words : {source target : Stage} → Onward source target → List String
  | _, _, stay => []
  | _, _, step onward accessor => onward.words ++ [accessor.words]

end Onward

namespace Walk

variable {source target : Stage}

def go (walk : Walk source) : {target : Stage} → Onward source target → Walk target
  | _, .stay => walk
  | _, .step onward accessor => (walk.go onward).step accessor

theorem text_step (walk : Walk source) (accessor : Accessor source target) :
    (walk.step accessor).builder.chain.text = walk.builder.chain.text ++ accessor.words := by
  have known : ∀ flag ∈ source.endsInMember?,
      Atom.endsInMember false walk.builder.chain.flatten = flag :=
    fun flag member => walk.endsInMember_flatten member
  rw [builder, Builder.step, Chain.text, Accessor.flatten_apply, Atom.write_append,
    accessor.write_atoms known, Chain.text]

theorem text_go (walk : Walk source) (onward : Onward source target) :
    (walk.go onward).builder.chain.text =
      walk.builder.chain.text ++ String.join onward.words := by
  induction onward with
  | stay => simp [go, Onward.words]
  | step onward accessor ih =>
      rw [go, text_step, ih]
      simp [Onward.words, String.append_assoc]

end Walk

/-- A check is written as its steps are on their own, with a dot in front of a step whose
first atom is a member behind a member. Steps that leave their operands apart are joined by
nothing. Whatever a check is placed in shows this text and adds its own around it. -/
theorem check_text (steps : List Check.Step) :
    let check := Check.ofSteps steps
    check.chain.text = String.join (Check.textsBehind [] steps) ∧
    (steps.IsChain Check.Step.Apart →
      check.chain.text = String.join (steps.map Check.Step.text)) ∧
    (∀ context : Context .expression,
      (context.fill check.term.operand).chain.text =
        context.front ++ check.chain.text ++ context.back) ∧
    ∀ (walk : Walk .variables) (stage : Stage) (onward : Onward (.value .any) stage),
      ((walk.step (.evaluate check.term.operand)).go onward).builder.chain.text =
          walk.builder.chain.text ++ check.chain.text ++ String.join onward.words ∧
        ((walk.step (.scope check.term.operand)).go onward).builder.chain.text =
          walk.builder.chain.text ++ ("(" ++ check.chain.text ++ ")") ++
            String.join onward.words := by
  intro check
  have general : check.chain.text = String.join (Check.textsBehind [] steps) := by
    have pushed := Check.empty.text_foldl_push steps
    have nothing : Check.empty.chain.text = "" := rfl
    rw [nothing, String.empty_append] at pushed
    exact pushed
  refine ⟨general, ?_, ?_, ?_⟩
  · intro apart
    rw [general]
    exact Check.join_textsBehind_of_apart (fun _ _ => rfl) apart
  · intro context
    exact context.text_fill check.term.operand
  · intro walk stage onward
    have evaluated : (Accessor.evaluate check.term.operand).words = check.chain.text :=
      String.empty_append
    have grouped : (Accessor.scope check.term.operand).words = "(" ++ check.chain.text ++ ")" :=
      String.empty_append
    rw [Walk.text_go, Walk.text_step, evaluated, Walk.text_go, Walk.text_step, grouped]
    exact ⟨rfl, rfl⟩

/-- `data.exists() && auth !== null`, where an operator stands between the operands. -/
theorem check_text_of_operands_apart :
    let data := (Term.plain (.chain [.member "data", .call "exists" ""])).operand
    let auth := (Term.plain (.member "auth")).operand
    let steps : List Check.Step := [.condition data, .and, .compare .unequal auth ⟨.null, rfl⟩]
    steps.IsChain Check.Step.Apart ∧
      (Check.ofSteps steps).chain.text = String.join (steps.map Check.Step.text) ∧
      (Check.ofSteps steps).chain.text = "data.exists() && auth !== null" := by
  intro data auth steps
  have apart : steps.IsChain Check.Step.Apart := by
    simp [steps, Check.Step.Apart, Check.Step.pushesOperand]
  have text := (check_text steps).2.1 apart
  exact ⟨apart, text, text.trans (by decide)⟩

/-- A chain without atoms lets the members around it meet. -/
example :
    (Check.ofSteps [.condition (Term.plain (.member "auth")).operand,
      .condition (Term.plain (.chain [])).operand,
      .condition (Term.plain (.member "now")).operand]).chain.text = "auth.now" := by
  decide

end AccessRules
