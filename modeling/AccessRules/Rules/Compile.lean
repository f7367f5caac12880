import AccessRules.Rules.Key
import AccessRules.Rules.Node
import AccessRules.Rules.Run

namespace AccessRules

/-! From a rule tree to the document that the database takes.

The walk is depth first and in the order of the keys. For each entry the key is
checked before the value under it, and a permission after its value. The first
failure ends the walk. A document held as a value is opened level by level, when the
walk comes to it.
-/

/-- The class of a key, unless a check refuses the key. -/
def Key.accept (strictness : Strictness) (key : String) (location : Location) : Run Key.Class :=
  match Key.classify key with
  | .unknownReserved =>
      if strictness.reservedKeys then .fail (.unknownReservedKey key location)
      else .done .unknownReserved
  | .wildcard =>
      if strictness.wildcards && !Key.isValidWildcard key then .fail (.invalidWildcard key location)
      else .done .wildcard
  | other => .done other

/-- Refuses a compiled permission that is neither a boolean nor a string, if asked to. -/
def acceptPermission (strictness : Strictness) (key : String) (location : Location) (value : Json) :
    Run Json :=
  if strictness.permissions && !(value.isBoolean || value.isString) then
    .fail (.invalidPermission key location)
  else .done value

/-- The document around the compiled rules. A run that succeeds ends with a summary. -/
def Run.summarized (run : Run Json) : Run Json :=
  match run.result with
  | .ok rules =>
      let summary := .finished run.tally.locations run.tally.expressions run.tally.deferred
      ⟨run.messages ++ [summary], run.tally, .ok (.object [(Location.topKey, rules)])⟩
  | .error _ => run

@[simp] theorem Run.summarized_result (run : Run Json) :
    run.summarized.result =
      run.result >>= fun rules => pure (.object [(Location.topKey, rules)]) := by
  cases found : run.result with
  | error failure =>
      simp only [summarized, found]
      rfl
  | ok rules =>
      simp only [summarized, found]
      rfl

namespace RuleNode

/-- The list under an index key. Its items are not looked at. -/
def compileIndex (location : Location) : RuleNode → Run Json
  | .list items => do
      Run.count .indexHint
      return .array items
  | .value (.array items) => do
      Run.count .indexHint
      return .array items
  | .deferred messages produced => do
      Run.count .deferral
      Run.report messages
      produced.compileIndex location
  | other => do
      Run.report [.indexForm location other.form]
      Run.fail (.indexNotList location)

mutual

/-- Compiles a node at a location, with so many maps around it. -/
def compileNode (strictness : Strictness) (location : Location) (depth : Nat) : RuleNode → Run Json
  | .map entries => do
      Run.report [.visiting location]
      Run.count (.visit depth)
      return .object (← compileEntries strictness location depth entries)
  | .expression element => do
      Run.report (element.warnings ++ [.rendered location element.text])
      Run.count .expression
      return .string element.text
  | .deferred messages produced => do
      Run.report [.producing location]
      Run.count .deferral
      Run.report messages
      produced.compileNode strictness location depth
  | .value (.array _) => Run.fail (.unexpectedList location)
  | .value (.object members) => (ofJson (.object members)).compileNode strictness location depth
  | .value scalar => do
      Run.count .scalar
      return scalar
  | .list _ => Run.fail (.unexpectedList location)
termination_by node => node.weight
decreasing_by
  · simp only [weight]; omega
  · simp only [weight]; omega
  · exact weight_ofJson_object_lt members

def compileEntries (strictness : Strictness) (location : Location) (depth : Nat) :
    List (String × RuleNode) → Run (List (String × Json))
  | [] => return []
  | (key, child) :: rest => do
      let here := location.child key
      let value ← match ← Key.accept strictness key here with
        | .indexOn => child.compileIndex here
        | .permission => do
            acceptPermission strictness key here (← child.compileNode strictness here (depth + 1))
        | _ => child.compileNode strictness here (depth + 1)
      return (key, value) :: (← compileEntries strictness location depth rest)
termination_by entries => entryWeights entries
decreasing_by
  all_goals
    simp only [entryWeights]
    omega

end

/-- Compiles what stands under the top-level key. Its siblings are not looked at. -/
def compileRoot (strictness : Strictness) : RuleNode → Run Json
  | .deferred messages produced => do
      Run.count .deferral
      Run.report messages
      produced.compileRoot strictness
  | .value (.object members) => (ofJson (.object members)).compileRoot strictness
  | .map entries =>
      match Entries.find? entries Location.topKey with
      | some rules => rules.compileNode strictness .top 0
      | none => Run.fail .missingRules
  | other => do
      Run.report [.rootForm other.form]
      Run.fail .missingRules
termination_by node => node.weight
decreasing_by
  · simp only [weight]; omega
  · exact weight_ofJson_object_lt members

def compile (strictness : Strictness) (tree : RuleNode) : Run Json :=
  (tree.compileRoot strictness).summarized

end RuleNode

end AccessRules
