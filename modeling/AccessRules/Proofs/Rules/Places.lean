import AccessRules.Proofs.Rules.Verbatim
import Mathlib.Algebra.GroupWithZero.Nat

namespace AccessRules

namespace Outline

theorem entryDeferrals_eq_sum (entries : List (String × Outline)) :
    entryDeferrals entries = (entries.map fun entry => entry.2.deferrals).sum := by
  induction entries with
  | nil => rfl
  | cons entry rest ih => simp [entryDeferrals, ih]

theorem rootDeferrals_map (form : NodeForm) (entries : List (String × Outline)) :
    (map form entries).rootDeferrals =
      (Entries.find? (entries.map fun entry => (entry.1, entry.2.deferrals))
        Location.topKey).getD 0 := by
  rw [Entries.find?_map, rootDeferrals]
  cases Entries.find? entries Location.topKey <;> rfl

end Outline

namespace RuleNode

theorem resolvedEntries_eq_map (entries : List (String × RuleNode)) :
    resolvedEntries entries = entries.map fun entry => (entry.1, entry.2.resolved) := by
  induction entries with
  | nil => rfl
  | cons entry rest ih => simp [resolvedEntries, ih]

/-- A tree with one node left open. -/
inductive Place where
  | here
  | under (before : List (String × RuleNode)) (key : String) (inside : Place)
      (after : List (String × RuleNode))
  | behind (messages : List Message) (inside : Place)

def Place.fill (node : RuleNode) : Place → RuleNode
  | .here => node
  | .under before key inside after => .map (before ++ (key, inside.fill node) :: after)
  | .behind messages inside => .deferred messages (inside.fill node)

/-- Nodes that a compilation takes for one another. The count on the way to the rules
matters for a node that stands at the root. -/
structure Interchangeable (left right : RuleNode) : Prop where
  resolved : left.resolved = right.resolved
  deferrals : left.outline.deferrals = right.outline.deferrals
  rootDeferrals : left.outline.rootDeferrals = right.outline.rootDeferrals

variable {left right : RuleNode}

theorem Interchangeable.compile (same : Interchangeable left right) (strictness : Strictness) :
    (left.compile strictness).counted = (right.compile strictness).counted := by
  rw [compile_counted, compile_counted, same.resolved, same.rootDeferrals]

theorem Interchangeable.under (same : Interchangeable left right)
    (before : List (String × RuleNode)) (key : String) (after : List (String × RuleNode)) :
    Interchangeable (.map (before ++ (key, left) :: after))
      (.map (before ++ (key, right) :: after)) where
  resolved := by
    simp only [RuleNode.resolved, resolvedEntries_eq_map, List.map_append, List.map_cons,
      same.resolved]
  deferrals := by
    simp only [outline, Outline.deferrals, Outline.entryDeferrals_eq_sum, outlineEntries_eq_map,
      List.map_append, List.map_cons, same.deferrals]
  rootDeferrals := by
    simp only [outline, Outline.rootDeferrals_map, outlineEntries_eq_map,
      List.map_append, List.map_cons, same.deferrals]

theorem Interchangeable.behind (same : Interchangeable left right) (messages : List Message) :
    Interchangeable (.deferred messages left) (.deferred messages right) where
  resolved := by simp only [RuleNode.resolved, same.resolved]
  deferrals := by simp only [outline, Outline.deferrals, same.deferrals]
  rootDeferrals := by simp only [outline, Outline.rootDeferrals, same.rootDeferrals]

theorem Interchangeable.fill (same : Interchangeable left right) (place : Place) :
    Interchangeable (place.fill left) (place.fill right) := by
  induction place with
  | here => exact same
  | under before key inside after ih => exact ih.under before key after
  | behind messages inside ih => exact ih.behind messages

theorem interchangeable_value_ofJson (json : Json) :
    Interchangeable (.value json) (ofJson json) where
  resolved := by rw [resolved_ofJson, resolved]
  deferrals := by
    rw [outline_ofJson, outline, Json.deferrals_outline, Json.deferrals_outline]
  rootDeferrals := by
    rw [outline_ofJson, outline, Json.rootDeferrals_outline, Json.rootDeferrals_outline]

/-- Whether a document is held as it is or converted does not show in what a caller is
given, at any place of any tree and under any checks. -/
theorem compile_fill_value_eq_ofJson (strictness : Strictness) (place : Place) (json : Json) :
    ((place.fill (.value json)).compile strictness).counted =
      ((place.fill (ofJson json)).compile strictness).counted := by
  have same : Interchangeable (.value json) (ofJson json) := interchangeable_value_ofJson json
  exact (same.fill place).compile strictness

end RuleNode

end AccessRules
