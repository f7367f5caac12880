import AccessRules.Proofs.Rules.Outline

namespace AccessRules

/-! Rule trees with nothing left to open.

Deferred nodes are replaced by what they produce, and documents by the maps, lists
and scalars they hold. What is left of a tree is what its meaning may depend on.
-/

inductive Resolved where
  | map (entries : List (String × Resolved))
  | list (items : List Json)
  | scalar (json : Json)
  | expression (element : Element)

namespace Json

mutual

def resolved : Json → Resolved
  | .object members => .map (resolvedMembers members)
  | .array items => .list items
  | scalar => .scalar scalar

def resolvedMembers : List (String × Json) → List (String × Resolved)
  | [] => []
  | (key, value) :: rest => (key, value.resolved) :: resolvedMembers rest

end

end Json

namespace RuleNode

mutual

def resolved : RuleNode → Resolved
  | .map entries => .map (resolvedEntries entries)
  | .value json => json.resolved
  | .expression element => .expression element
  | .list items => .list items
  | .deferred _ produced => produced.resolved

def resolvedEntries : List (String × RuleNode) → List (String × Resolved)
  | [] => []
  | (key, node) :: rest => (key, node.resolved) :: resolvedEntries rest

end

end RuleNode

namespace Outline

mutual

def resolved : Outline → Resolved
  | .map _ entries => .map (resolvedEntries entries)
  | .list _ items => .list items
  | .scalar json => .scalar json
  | .expression element => .expression element
  | .deferred _ produced => produced.resolved

def resolvedEntries : List (String × Outline) → List (String × Resolved)
  | [] => []
  | (key, child) :: rest => (key, child.resolved) :: resolvedEntries rest

end

theorem resolvedEntries_eq_map (entries : List (String × Outline)) :
    resolvedEntries entries = entries.map fun entry => (entry.1, entry.2.resolved) := by
  induction entries with
  | nil => rfl
  | cons entry rest ih => simp [resolvedEntries, ih]

theorem find?_resolvedEntries (entries : List (String × Outline)) (key : String) :
    Entries.find? (resolvedEntries entries) key = (Entries.find? entries key).map resolved := by
  rw [resolvedEntries_eq_map]
  exact Entries.find?_map resolved entries key

end Outline

mutual

theorem Json.resolved_outline (objectForm arrayForm : NodeForm) (json : Json) :
    (json.outline objectForm arrayForm).resolved = json.resolved := by
  cases json with
  | object members =>
      simp only [Json.outline, Outline.resolved, Json.resolved,
        Json.resolved_outlineMembers members]
  | _ => simp [Json.outline, Outline.resolved, Json.resolved]

theorem Json.resolved_outlineMembers (members : List (String × Json)) :
    Outline.resolvedEntries (Json.outlineMembers members) = Json.resolvedMembers members := by
  cases members with
  | nil => rfl
  | cons member rest =>
      obtain ⟨key, value⟩ := member
      simp only [Json.outlineMembers, Outline.resolvedEntries, Json.resolvedMembers,
        Json.resolved_outline .map .list value, Json.resolved_outlineMembers rest]

end

mutual

theorem RuleNode.resolved_outline (node : RuleNode) : node.outline.resolved = node.resolved := by
  cases node with
  | map entries =>
      simp only [RuleNode.outline, Outline.resolved, RuleNode.resolved,
        RuleNode.resolved_outlineEntries entries]
  | value json => simp only [RuleNode.outline, RuleNode.resolved, Json.resolved_outline]
  | expression element => rfl
  | list items => rfl
  | deferred messages produced =>
      simp only [RuleNode.outline, Outline.resolved, RuleNode.resolved,
        RuleNode.resolved_outline produced]

theorem RuleNode.resolved_outlineEntries (entries : List (String × RuleNode)) :
    Outline.resolvedEntries (RuleNode.outlineEntries entries) =
      RuleNode.resolvedEntries entries := by
  cases entries with
  | nil => rfl
  | cons entry rest =>
      obtain ⟨key, node⟩ := entry
      simp only [RuleNode.outlineEntries, Outline.resolvedEntries, RuleNode.resolvedEntries,
        RuleNode.resolved_outline node, RuleNode.resolved_outlineEntries rest]

end

namespace Resolved

def rules? : Resolved → Option Resolved
  | .map entries => Entries.find? entries Location.topKey
  | _ => none

mutual

/-- The document of a tree: its shape, its keys and its scalars as they are, and each
expression as its text. The items of a list are not looked at. -/
def document : Resolved → Json
  | .map entries => .object (documentEntries entries)
  | .list items => .array items
  | .scalar json => json
  | .expression element => .string element.text

def documentEntries : List (String × Resolved) → List (String × Json)
  | [] => []
  | (key, child) :: rest => (key, child.document) :: documentEntries rest

end

end Resolved

end AccessRules
