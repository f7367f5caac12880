import AccessRules.Proofs.Expression.Nesting
import AccessRules.Proofs.Expression.Sameness
import AccessRules.Proofs.Rules.Places

namespace AccessRules

namespace Outline

/-- Nodes that the compiler goes through with the same messages, counts and results, wherever
it meets them. -/
structure Alike (left right : Outline) : Prop where
  compile : ∀ strictness location,
    left.compile strictness location = right.compile strictness location
  compileIndex : ∀ location, left.compileIndex location = right.compileIndex location
  compileRoot : ∀ strictness, left.compileRoot strictness = right.compileRoot strictness

theorem alike_expression {left right : Element} (alike : left.Alike right) :
    Alike (.expression left) (.expression right) where
  compile _ _ := by rw [compile, compile, alike.warnings, alike.text]
  compileIndex _ := rfl
  compileRoot _ := rfl

variable {left right : Outline}

theorem Alike.compileEntry (alike : left.Alike right) (strictness : Strictness) (key : String)
    (location : Location) :
    left.compileEntry strictness key location = right.compileEntry strictness key location := by
  simp only [compileEntry_eq, alike.compile, alike.compileIndex]

theorem Alike.compileEntries (alike : left.Alike right) (strictness : Strictness)
    (location : Location) (before : List (String × Outline)) (key : String)
    (after : List (String × Outline)) :
    compileEntries strictness location (before ++ (key, left) :: after) =
      compileEntries strictness location (before ++ (key, right) :: after) := by
  induction before with
  | nil => rw [List.nil_append, List.nil_append, compileEntries_cons, compileEntries_cons,
      alike.compileEntry]
  | cons entry rest ih =>
      obtain ⟨name, child⟩ := entry
      rw [List.cons_append, List.cons_append, compileEntries_cons, compileEntries_cons, ih]

/-- The rules of two maps that differ in one entry are one node, or they are the nodes of
that entry. -/
theorem find?_around (before : List (String × Outline)) (key : String)
    (after : List (String × Outline)) (name : String) :
    Entries.find? (before ++ (key, left) :: after) name =
        Entries.find? (before ++ (key, right) :: after) name ∨
      Entries.find? (before ++ (key, left) :: after) name = some left ∧
        Entries.find? (before ++ (key, right) :: after) name = some right := by
  induction before with
  | nil =>
      rw [List.nil_append, List.nil_append, Entries.find?_cons, Entries.find?_cons]
      by_cases here : name = key
      · exact .inr ⟨if_pos here, if_pos here⟩
      · rw [if_neg here, if_neg here]
        exact .inl rfl
  | cons entry rest ih =>
      obtain ⟨first, child⟩ := entry
      rw [List.cons_append, List.cons_append, Entries.find?_cons, Entries.find?_cons]
      by_cases here : name = first
      · rw [if_pos here, if_pos here]
        exact .inl rfl
      · rw [if_neg here, if_neg here]
        exact ih

theorem Alike.map (alike : left.Alike right) (form : NodeForm) (before : List (String × Outline))
    (key : String) (after : List (String × Outline)) :
    Alike (.map form (before ++ (key, left) :: after))
      (.map form (before ++ (key, right) :: after)) where
  compile strictness location := by
    rw [Outline.compile, Outline.compile, alike.compileEntries]
  compileIndex _ := rfl
  compileRoot strictness := by
    rw [Outline.compileRoot, Outline.compileRoot]
    rcases find?_around before key after Location.topKey with same | ⟨leftRules, rightRules⟩
    · rw [same]
    · rw [leftRules, rightRules]
      exact alike.compile strictness .top

theorem Alike.deferred (alike : left.Alike right) (messages : List Message) :
    Alike (.deferred messages left) (.deferred messages right) where
  compile strictness location := by
    rw [Outline.compile, Outline.compile, alike.compile]
  compileIndex location := by
    rw [Outline.compileIndex, Outline.compileIndex, alike.compileIndex]
  compileRoot strictness := by
    rw [Outline.compileRoot, Outline.compileRoot, alike.compileRoot]

end Outline

namespace RuleNode

theorem alike_fill {left right : RuleNode} (alike : left.outline.Alike right.outline)
    (place : Place) : (place.fill left).outline.Alike (place.fill right).outline := by
  induction place with
  | here => exact alike
  | under before key inside after ih =>
      simp only [Place.fill, outline, outlineEntries_eq_map, List.map_append, List.map_cons]
      exact ih.map .map _ key _
  | behind messages inside ih => exact ih.deferred messages

theorem compile_of_alike {left right : RuleNode} (alike : left.outline.Alike right.outline)
    (strictness : Strictness) : left.compile strictness = right.compile strictness := by
  rw [compile_eq_outline, compile_eq_outline, alike.compileRoot]

end RuleNode

/-- Equal elements have equally many atoms, equal one by one, and one text. Put in for one
another anywhere in a chain, in an operand of combinators or in a rule tree they change
neither the text nor anything of the compilation. -/
theorem same_elements_replaceable {left right : Element} (same : left.same right = true) :
    left.flatten.length = right.flatten.length ∧
    List.Forall₂ (fun first second => first.same second = true) left.flatten right.flatten ∧
    left.text = right.text ∧
    (∀ (before : Chain) (place : Element.Place) (after : Chain),
      Chain.text (before ++ place.fill left :: after) =
        Chain.text (before ++ place.fill right :: after)) ∧
    (∀ (role : Role) (context : Context role) (place : Element.Place) (kind : Option Kind)
      (accepted : role.accepts kind = true),
      (context.fill ⟨⟨place.fill left, kind⟩, accepted⟩).chain.text =
        (context.fill ⟨⟨place.fill right, kind⟩, accepted⟩).chain.text) ∧
    ∀ (strictness : Strictness) (tree : RuleNode.Place) (place : Element.Place),
      (tree.fill (.expression (place.fill left))).compile strictness =
        (tree.fill (.expression (place.fill right))).compile strictness := by
  have pairwise := Element.forall₂_flatten_of_same same
  have alike := Element.alike_of_same same
  refine ⟨pairwise.length_eq, pairwise, alike.text, ?_, ?_, ?_⟩
  · intro before place after
    exact ((alike.fill place).inside before after).text
  · intro role context place kind accepted
    have written : (place.fill left).text = (place.fill right).text := (alike.fill place).text
    rw [context.text_fill, context.text_fill]
    simp only [Operand.element, written]
  · intro strictness tree place
    have leaves : (RuleNode.outline (.expression (place.fill left))).Alike
        (RuleNode.outline (.expression (place.fill right))) :=
      Outline.alike_expression (alike.fill place)
    exact RuleNode.compile_of_alike (RuleNode.alike_fill leaves tree) strictness

/-- The two zeros beside a NaN. The whole expressions are not equal, as no NaN is. -/
theorem same_elements_replaceable_zeros :
    let zero := Element.literal (.number (.zero false))
    let negative := Element.literal (.number (.zero true))
    let place := Element.Place.inside
      [.literal (.number .nan), .token (.binary (.compare .less))] .here []
    let tree := RuleNode.Place.under [] "rules" (.under [] ".read" .here []) []
    zero.same negative = true ∧ zero.flatten ≠ negative.flatten ∧
      (place.fill zero).same (place.fill negative) = false ∧
      Chain.text [place.fill zero] = Chain.text [place.fill negative] ∧
      ((tree.fill (.expression (place.fill zero))).compile .strict) =
        ((tree.fill (.expression (place.fill negative))).compile .strict) := by
  intro zero negative place tree
  have same : zero.same negative = true := by decide
  obtain ⟨-, -, -, chains, -, trees⟩ := same_elements_replaceable same
  exact ⟨same, by decide, by decide, chains [] place [], trees .strict tree place⟩

end AccessRules
