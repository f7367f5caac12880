import AccessRules.Proofs.Rules.Places
import Mathlib.Data.List.FinRange

namespace AccessRules

/-- A step from a node to one below it. -/
inductive Reordering.Step where
  | key (name : String)
  | item (index : Nat)

/-- An order for the entries of every map. A map is given by the steps that lead to it, and
a permutation of its places tells which entry is put at each of them. -/
def Reordering := List Reordering.Step → (count : Nat) → Equiv.Perm (Fin count)

namespace Reordering

variable {α β : Type} (order : Reordering)

def below (step : Step) : Reordering := fun steps => order (step :: steps)

def arrange (entries : List α) : List α :=
  List.ofFn fun place : Fin entries.length => entries.get (order [] entries.length place)

theorem arrange_perm (entries : List α) : (order.arrange entries).Perm entries := by
  have shuffled := Equiv.Perm.ofFn_comp_perm (order [] entries.length) entries.get
  rwa [List.ofFn_get] at shuffled

theorem place_eq {left right : Nat} (same : left = right) (place : Nat) (first : place < left)
    (second : place < right) :
    (order [] left ⟨place, first⟩ : Nat) = order [] right ⟨place, second⟩ := by
  subst same
  rfl

/-- An order looks at places alone, so it does not matter what stands there. -/
theorem arrange_map (convert : α → β) (entries : List α) :
    order.arrange (entries.map convert) = (order.arrange entries).map convert := by
  apply List.ext_getElem
  · simp [arrange]
  · intro place first second
    have inside : place < entries.length := by simpa [arrange] using second
    have same := order.place_eq (List.length_map convert) place
      (by simpa [arrange] using inside) inside
    simp [arrange, same]

theorem arrange_singleton (entry : α) : order.arrange [entry] = [entry] :=
  List.perm_singleton.mp (order.arrange_perm [entry])

end Reordering

namespace Json

mutual

/-- The document with the members of every object in the given order, also of the objects
inside arrays. -/
def reorder (order : Reordering) : Json → Json
  | .object members => .object (order.arrange (reorderMembers order members))
  | .array items => .array (reorderItems order 0 items)
  | scalar => scalar

def reorderMembers (order : Reordering) : List (String × Json) → List (String × Json)
  | [] => []
  | (key, value) :: rest =>
      (key, value.reorder (order.below (.key key))) :: reorderMembers order rest

def reorderItems (order : Reordering) (index : Nat) : List Json → List Json
  | [] => []
  | item :: rest => item.reorder (order.below (.item index)) :: reorderItems order (index + 1) rest

end

end Json

namespace RuleNode

mutual

/-- The tree with the entries of every map in the given order. Deferred nodes are no step,
and the maps that they make are among the reordered ones. -/
def reorder (order : Reordering) : RuleNode → RuleNode
  | .map entries => .map (order.arrange (reorderEntries order entries))
  | .value json => .value (json.reorder order)
  | .expression element => .expression element
  | .list items => .list (Json.reorderItems order 0 items)
  | .deferred messages produced => .deferred messages (produced.reorder order)

def reorderEntries (order : Reordering) : List (String × RuleNode) → List (String × RuleNode)
  | [] => []
  | (key, node) :: rest =>
      (key, node.reorder (order.below (.key key))) :: reorderEntries order rest

end

theorem reorderEntries_eq_map (order : Reordering) (entries : List (String × RuleNode)) :
    reorderEntries order entries =
      entries.map fun entry => (entry.1, entry.2.reorder (order.below (.key entry.1))) := by
  induction entries with
  | nil => rfl
  | cons entry rest ih => simp [reorderEntries, ih]

end RuleNode

namespace Resolved

mutual

def reorder (order : Reordering) : Resolved → Resolved
  | .map entries => .map (order.arrange (reorderEntries order entries))
  | .list items => .list (Json.reorderItems order 0 items)
  | .scalar json => .scalar (json.reorder order)
  | .expression element => .expression element

def reorderEntries (order : Reordering) : List (String × Resolved) → List (String × Resolved)
  | [] => []
  | (key, child) :: rest =>
      (key, child.reorder (order.below (.key key))) :: reorderEntries order rest

end

theorem documentEntries_eq_map (entries : List (String × Resolved)) :
    documentEntries entries = entries.map fun entry => (entry.1, entry.2.document) := by
  induction entries with
  | nil => rfl
  | cons entry rest ih => simp [documentEntries, ih]

theorem reorderEntries_eq_map (order : Reordering) (entries : List (String × Resolved)) :
    reorderEntries order entries =
      entries.map fun entry => (entry.1, entry.2.reorder (order.below (.key entry.1))) := by
  induction entries with
  | nil => rfl
  | cons entry rest ih => simp [reorderEntries, ih]

end Resolved

mutual

theorem Json.resolved_reorder (order : Reordering) (json : Json) :
    (json.reorder order).resolved = json.resolved.reorder order := by
  cases json with
  | object members =>
      rw [Json.reorder, Json.resolved, Json.resolvedMembers_eq_map, ← order.arrange_map,
        ← Json.resolvedMembers_eq_map, Json.resolvedMembers_reorderMembers order members]
      rfl
  | _ => rfl

theorem Json.resolvedMembers_reorderMembers (order : Reordering)
    (members : List (String × Json)) :
    Json.resolvedMembers (Json.reorderMembers order members) =
      Resolved.reorderEntries order (Json.resolvedMembers members) := by
  cases members with
  | nil => rfl
  | cons member rest =>
      obtain ⟨key, value⟩ := member
      simp only [Json.reorderMembers, Json.resolvedMembers, Resolved.reorderEntries,
        Json.resolved_reorder (order.below (.key key)) value,
        Json.resolvedMembers_reorderMembers order rest]

end

mutual

theorem RuleNode.resolved_reorder (order : Reordering) (node : RuleNode) :
    (node.reorder order).resolved = node.resolved.reorder order := by
  cases node with
  | map entries =>
      rw [RuleNode.reorder, RuleNode.resolved, RuleNode.resolvedEntries_eq_map,
        ← order.arrange_map, ← RuleNode.resolvedEntries_eq_map,
        RuleNode.resolvedEntries_reorderEntries order entries]
      rfl
  | value json => exact json.resolved_reorder order
  | expression element => rfl
  | list items => rfl
  | deferred messages produced => exact RuleNode.resolved_reorder order produced

theorem RuleNode.resolvedEntries_reorderEntries (order : Reordering)
    (entries : List (String × RuleNode)) :
    RuleNode.resolvedEntries (RuleNode.reorderEntries order entries) =
      Resolved.reorderEntries order (RuleNode.resolvedEntries entries) := by
  cases entries with
  | nil => rfl
  | cons entry rest =>
      obtain ⟨key, node⟩ := entry
      simp only [RuleNode.reorderEntries, RuleNode.resolvedEntries, Resolved.reorderEntries,
        RuleNode.resolved_reorder (order.below (.key key)) node,
        RuleNode.resolvedEntries_reorderEntries order rest]

end

mutual

theorem Resolved.document_reorder (order : Reordering) (node : Resolved) :
    (node.reorder order).document = node.document.reorder order := by
  cases node with
  | map entries =>
      rw [Resolved.reorder, Resolved.document, Resolved.documentEntries_eq_map,
        ← order.arrange_map, ← Resolved.documentEntries_eq_map,
        Resolved.documentEntries_reorderEntries order entries]
      rfl
  | list items => rfl
  | scalar json => rfl
  | expression element => rfl

theorem Resolved.documentEntries_reorderEntries (order : Reordering)
    (entries : List (String × Resolved)) :
    Resolved.documentEntries (Resolved.reorderEntries order entries) =
      Json.reorderMembers order (Resolved.documentEntries entries) := by
  cases entries with
  | nil => rfl
  | cons entry rest =>
      obtain ⟨key, child⟩ := entry
      simp only [Resolved.reorderEntries, Resolved.documentEntries, Json.reorderMembers,
        Resolved.document_reorder (order.below (.key key)) child,
        Resolved.documentEntries_reorderEntries order rest]

end

end AccessRules
