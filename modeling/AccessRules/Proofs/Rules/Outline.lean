import AccessRules.Rules.Compile

namespace AccessRules

/-! What the compiler meets at each location of a rule tree.

In an outline every document held as a value is opened at once, so an object is a map
whichever way it was given; the form in which a node was given stays beside it, for
messages alone. The compiler opens documents while it walks, and has arms of their own for
them. Both walks come to the same run.
-/

inductive Outline where
  | map (form : NodeForm) (entries : List (String × Outline))
  | list (form : NodeForm) (items : List Json)
  | scalar (json : Json)
  | expression (element : Element)
  | deferred (messages : List Message) (produced : Outline)

def Outline.form : Outline → NodeForm
  | .map form _ => form
  | .list form _ => form
  | .scalar _ => .value
  | .expression _ => .expression
  | .deferred _ _ => .deferred

namespace Json

mutual

/-- A document opened. The forms are those of its own object or array; everything
inside is converted. -/
def outline (objectForm arrayForm : NodeForm) : Json → Outline
  | .object members => .map objectForm (outlineMembers members)
  | .array items => .list arrayForm items
  | scalar => .scalar scalar

def outlineMembers : List (String × Json) → List (String × Outline)
  | [] => []
  | (key, value) :: rest => (key, outline .map .list value) :: outlineMembers rest

end

end Json

namespace RuleNode

mutual

def outline : RuleNode → Outline
  | .map entries => .map .map (outlineEntries entries)
  | .value json => json.outline .value .value
  | .expression element => .expression element
  | .list items => .list .list items
  | .deferred messages produced => .deferred messages produced.outline

def outlineEntries : List (String × RuleNode) → List (String × Outline)
  | [] => []
  | (key, node) :: rest => (key, node.outline) :: outlineEntries rest

end

mutual

theorem outline_ofJson (json : Json) : (ofJson json).outline = json.outline .map .list := by
  cases json with
  | object members =>
      simp only [ofJson, outline, Json.outline, outlineEntries_ofMembers members]
  | _ => simp [ofJson, outline, Json.outline]

theorem outlineEntries_ofMembers (members : List (String × Json)) :
    outlineEntries (ofMembers members) = Json.outlineMembers members := by
  cases members with
  | nil => rfl
  | cons entry rest =>
      obtain ⟨key, value⟩ := entry
      simp only [ofMembers, outlineEntries, Json.outlineMembers, outline_ofJson value,
        outlineEntries_ofMembers rest]

end

end RuleNode

theorem RuleNode.outlineEntries_eq_map (entries : List (String × RuleNode)) :
    RuleNode.outlineEntries entries = entries.map fun entry => (entry.1, entry.2.outline) := by
  induction entries with
  | nil => rfl
  | cons entry rest ih => simp [RuleNode.outlineEntries, ih]

theorem Json.outlineMembers_eq_map (members : List (String × Json)) :
    Json.outlineMembers members =
      members.map fun member => (member.1, member.2.outline .map .list) := by
  induction members with
  | nil => rfl
  | cons member rest ih => simp [Json.outlineMembers, ih]

namespace Outline

def compileIndex (location : Location) : Outline → Run Json
  | .list _ items => do
      Run.count .indexHint
      return .array items
  | .deferred messages produced => do
      Run.count .deferral
      Run.report messages
      produced.compileIndex location
  | .map form _ => do
      Run.report [.indexForm location form]
      Run.fail (.indexNotList location)
  | .scalar _ => do
      Run.report [.indexForm location .value]
      Run.fail (.indexNotList location)
  | .expression _ => do
      Run.report [.indexForm location .expression]
      Run.fail (.indexNotList location)

mutual

def compile (strictness : Strictness) (location : Location) : Outline → Run Json
  | .map _ entries => do
      Run.report [.visiting location]
      Run.count (.visit location.depth)
      return .object (← compileEntries strictness location entries)
  | .expression element => do
      Run.report (element.warnings ++ [.rendered location element.text])
      Run.count .expression
      return .string element.text
  | .deferred messages produced => do
      Run.report [.producing location]
      Run.count .deferral
      Run.report messages
      produced.compile strictness location
  | .scalar json => do
      Run.count .scalar
      return json
  | .list _ _ => Run.fail (.unexpectedList location)

def compileEntries (strictness : Strictness) (location : Location) :
    List (String × Outline) → Run (List (String × Json))
  | [] => return []
  | (key, child) :: rest => do
      let here := location.child key
      let value ← match ← Key.accept strictness key here with
        | .indexOn => child.compileIndex here
        | .permission => do
            acceptPermission strictness key here (← child.compile strictness here)
        | _ => child.compile strictness here
      return (key, value) :: (← compileEntries strictness location rest)

end

def compileRoot (strictness : Strictness) : Outline → Run Json
  | .deferred messages produced => do
      Run.count .deferral
      Run.report messages
      produced.compileRoot strictness
  | .map _ entries =>
      match Entries.find? entries Location.topKey with
      | some rules => rules.compile strictness .top
      | none => Run.fail .missingRules
  | .list form _ => do
      Run.report [.rootForm form]
      Run.fail .missingRules
  | .scalar _ => do
      Run.report [.rootForm .value]
      Run.fail .missingRules
  | .expression _ => do
      Run.report [.rootForm .expression]
      Run.fail .missingRules

end Outline

namespace RuleNode

theorem compileIndex_eq_outline (location : Location) (node : RuleNode) :
    node.compileIndex location = node.outline.compileIndex location := by
  induction node using compileIndex.induct with
  | case1 items => rfl
  | case2 items => rfl
  | case3 messages produced ih => rw [compileIndex, outline, Outline.compileIndex, ih]
  | case4 other notList notArray notDeferred =>
      cases other with
      | list items => exact absurd rfl (notList items)
      | deferred messages produced => exact absurd rfl (notDeferred messages produced)
      | map entries => rfl
      | expression element => rfl
      | value json =>
          cases json with
          | array items => exact absurd rfl (notArray items)
          | _ => rfl

mutual

/-- There are as many maps around a node as there are keys in its location, so the depth that
the compiler passes on can be told from the location. -/
theorem compileNode_eq_outline (strictness : Strictness) (location : Location) (node : RuleNode) :
    node.compileNode strictness location location.depth =
      node.outline.compile strictness location := by
  match node with
  | .map entries =>
      rw [compileNode, compileEntries_eq_outline strictness location entries]
      rfl
  | .expression element =>
      rw [compileNode]
      rfl
  | .deferred messages produced =>
      rw [compileNode, compileNode_eq_outline strictness location produced]
      rfl
  | .list items =>
      rw [compileNode]
      rfl
  | .value (.array items) =>
      rw [compileNode]
      rfl
  | .value (.object members) =>
      -- Only the form that stands beside the map differs from that of the converted object.
      rw [compileNode, compileNode_eq_outline strictness location (ofJson (.object members)),
        outline_ofJson]
      rfl
  | .value .null | .value (.boolean _) | .value (.integer _) | .value (.float _)
  | .value (.string _) =>
      rw [compileNode]
      · rfl
      all_goals simp
termination_by node.weight
decreasing_by
  · simp only [weight]; omega
  · simp only [weight]; omega
  · exact weight_ofJson_object_lt members

theorem compileEntries_eq_outline (strictness : Strictness) (location : Location)
    (entries : List (String × RuleNode)) :
    compileEntries strictness location location.depth entries =
      Outline.compileEntries strictness location (outlineEntries entries) := by
  match entries with
  | [] =>
      rw [compileEntries]
      rfl
  | (key, child) :: rest =>
      have here := compileNode_eq_outline strictness (location.child key) child
      rw [Location.depth_child] at here
      rw [compileEntries, here, compileIndex_eq_outline,
        compileEntries_eq_outline strictness location rest]
      rfl
termination_by entryWeights entries
decreasing_by
  all_goals
    simp only [entryWeights]
    omega

end

theorem compileRoot_eq_outline (strictness : Strictness) (tree : RuleNode) :
    tree.compileRoot strictness = tree.outline.compileRoot strictness := by
  induction tree using compileRoot.induct with
  | case1 messages produced ih =>
      rw [compileRoot, ih]
      rfl
  | case2 members ih =>
      rw [compileRoot, ih, outline_ofJson]
      rfl
  | case3 entries rules found =>
      rw [compileRoot, outline, Outline.compileRoot, outlineEntries_eq_map, Entries.find?_map,
        found]
      exact rules.compileNode_eq_outline strictness .top
  | case4 entries absent =>
      rw [compileRoot, outline, Outline.compileRoot, outlineEntries_eq_map, Entries.find?_map,
        absent]
      rfl
  | case5 other notDeferred notObject notMap =>
      rw [compileRoot]
      · cases other with
        | deferred messages produced => exact absurd rfl (notDeferred messages produced)
        | map entries => exact absurd rfl (notMap entries)
        | list items => rfl
        | expression element => rfl
        | value json =>
            cases json with
            | object members => exact absurd rfl (notObject members)
            | _ => rfl
      all_goals assumption

/-- The compiler comes to what the walk over the outline comes to. -/
theorem compile_eq_outline (strictness : Strictness) (tree : RuleNode) :
    tree.compile strictness = (tree.outline.compileRoot strictness).summarized := by
  rw [compile, compileRoot_eq_outline]

end RuleNode

end AccessRules
