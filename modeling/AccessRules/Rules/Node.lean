import AccessRules.Element
import AccessRules.Json.Printer

namespace AccessRules

inductive RuleNode where
  /-- A location with its children in order. -/
  | map (entries : List (String × RuleNode))
  /-- A document taken as it is. -/
  | value (json : Json)
  /-- An expression that is rendered to its text. -/
  | expression (element : Element)
  | list (items : List Json)
  /-- A node that is made only when the tree is compiled. Making it reports `messages`. -/
  | deferred (messages : List Message) (produced : RuleNode)

namespace RuleNode

def form : RuleNode → NodeForm
  | .map _ => .map
  | .value _ => .value
  | .expression _ => .expression
  | .list _ => .list
  | .deferred _ _ => .deferred

def ofPairs (pairs : List (String × RuleNode)) : RuleNode := .map (Entries.ofPairs pairs)

/-- Nested maps along a list of keys, with a node at their end. -/
def nest (keys : List String) (node : RuleNode) : RuleNode :=
  keys.foldr (fun key inner => .map [(key, inner)]) node

def keys? : RuleNode → Option (List String)
  | .map entries => some (Entries.keys entries)
  | _ => none

mutual

/-- A document as a tree: objects become maps at every depth, arrays lists. -/
def ofJson : Json → RuleNode
  | .object members => .map (ofMembers members)
  | .array items => .list items
  | scalar => .value scalar

def ofMembers : List (String × Json) → List (String × RuleNode)
  | [] => []
  | (key, json) :: rest => (key, ofJson json) :: ofMembers rest

end

end RuleNode

mutual

/-- A document held as it is weighs no less than the tree it is converted to, and an object
weighs more. -/
def Json.weight : Json → Nat
  | .object members => Json.memberWeights members + 2
  | _ => 1

def Json.memberWeights : List (String × Json) → Nat
  | [] => 0
  | (_, json) :: rest => json.weight + Json.memberWeights rest + 1

end

namespace RuleNode

mutual

def weight : RuleNode → Nat
  | .map entries => entryWeights entries + 1
  | .value json => json.weight
  | .expression _ => 1
  | .list _ => 1
  | .deferred _ produced => produced.weight + 1

def entryWeights : List (String × RuleNode) → Nat
  | [] => 0
  | (_, node) :: rest => node.weight + entryWeights rest + 1

end

mutual

theorem weight_ofJson_le (json : Json) : (ofJson json).weight ≤ json.weight := by
  cases json with
  | object members =>
      have inside := entryWeights_ofMembers_le members
      simp only [ofJson, weight, Json.weight]
      omega
  | _ => simp [ofJson, weight, Json.weight]

theorem entryWeights_ofMembers_le (members : List (String × Json)) :
    entryWeights (ofMembers members) ≤ Json.memberWeights members := by
  cases members with
  | nil => exact Nat.le_refl _
  | cons member rest =>
      obtain ⟨key, json⟩ := member
      have first := weight_ofJson_le json
      have others := entryWeights_ofMembers_le rest
      simp only [ofMembers, entryWeights, Json.memberWeights]
      omega

end

/-- Opening an object is a step forward. -/
theorem weight_ofJson_object_lt (members : List (String × Json)) :
    (ofJson (.object members)).weight < (value (.object members)).weight := by
  have inside := entryWeights_ofMembers_le members
  simp only [ofJson, weight, Json.weight]
  omega

end RuleNode

end AccessRules
