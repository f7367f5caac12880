import AccessRules.Proofs.Rules.Places
import AccessRules.Proofs.Rules.Strictness

namespace AccessRules

/-- Whether the counts are those of nodes of the given forms. Forms tell nothing of depth. -/
structure Tally.Counts (tally : Tally) (forms : List NodeForm) : Prop where
  locations : tally.locations = forms.count .map
  expressions : tally.expressions = forms.count .expression
  deferred : tally.deferred = forms.count .deferred
  indexHints : tally.indexHints = forms.count .list
  scalars : tally.scalars = forms.count .value

theorem Tally.Counts.combine {left right : Tally} {forms others : List NodeForm}
    (first : left.Counts forms) (second : right.Counts others) :
    (left.combine right).Counts (forms ++ others) where
  locations := by simp only [Tally.combine, first.locations, second.locations, List.count_append]
  expressions := by
    simp only [Tally.combine, first.expressions, second.expressions, List.count_append]
  deferred := by simp only [Tally.combine, first.deferred, second.deferred, List.count_append]
  indexHints := by simp only [Tally.combine, first.indexHints, second.indexHints, List.count_append]
  scalars := by simp only [Tally.combine, first.scalars, second.scalars, List.count_append]

theorem Tally.counts_zero : Tally.zero.Counts [] := ⟨rfl, rfl, rfl, rfl, rfl⟩

theorem Tally.counts_visit (depth : Nat) : (visit depth).Counts [.map] := ⟨rfl, rfl, rfl, rfl, rfl⟩

theorem Tally.counts_deferral : deferral.Counts [.deferred] := ⟨rfl, rfl, rfl, rfl, rfl⟩

namespace Json

def isObject : Json → Bool
  | .object _ => true
  | _ => false

def form : Json → NodeForm
  | .object _ => .map
  | .array _ => .list
  | _ => .value

mutual

/-- The nodes of a document in order, each with the keys that lead to it. What an array
holds is no node. -/
def nodes : Json → List (List String × Json)
  | .object members => ([], .object members) :: memberNodes members
  | leaf => [([], leaf)]

def memberNodes : List (String × Json) → List (List String × Json)
  | [] => []
  | (key, value) :: rest =>
      (value.nodes.map fun node => (key :: node.1, node.2)) ++ memberNodes rest

end

def forms (json : Json) : List NodeForm := json.nodes.map fun node => node.2.form

/-- The most keys that lead to an object, with `start` of them in front of each list. -/
def deepest (start : Nat) (nodes : List (List String × Json)) : Nat :=
  (nodes.map fun node => if node.2.isObject then start + node.1.length else 0).foldr max 0

/-- The most keys on a path from the document down to an object, 0 if there is none. -/
def depth (json : Json) : Nat := deepest 0 json.nodes

theorem deepest_append (start : Nat) (left right : List (List String × Json)) :
    deepest start (left ++ right) = max (deepest start left) (deepest start right) := by
  induction left with
  | nil => exact (Nat.zero_max _).symm
  | cons node rest ih =>
      unfold deepest at ih ⊢
      rw [List.cons_append, List.map_cons, List.foldr_cons, ih, List.map_cons, List.foldr_cons,
        Nat.max_assoc]

/-- A key in front of all lists counts as one more at the start. -/
theorem deepest_under (start : Nat) (key : String) (nodes : List (List String × Json)) :
    deepest start (nodes.map fun node => (key :: node.1, node.2)) = deepest (start + 1) nodes := by
  unfold deepest
  rw [List.map_map]
  congr 2
  funext node
  have longer : start + (node.1.length + 1) = start + 1 + node.1.length := by omega
  rw [Function.comp_apply, List.length_cons, longer]

mutual

theorem maxDepth_tally_resolved (start : Nat) (json : Json) :
    (json.resolved.tally start).maxDepth = deepest start json.nodes := by
  cases json with
  | object members =>
      have below := maxDepth_entryTally_resolvedMembers start members
      simp only [resolved, Resolved.tally, Tally.combine, Tally.visit, below]
      rfl
  | _ => rfl

theorem maxDepth_entryTally_resolvedMembers (start : Nat) (members : List (String × Json)) :
    (Resolved.entryTally (start + 1) (resolvedMembers members)).maxDepth =
      deepest start (memberNodes members) := by
  cases members with
  | nil => rfl
  | cons member rest =>
      obtain ⟨key, value⟩ := member
      rw [memberNodes, deepest_append, deepest_under, ← maxDepth_tally_resolved (start + 1) value,
        ← maxDepth_entryTally_resolvedMembers start rest]
      rfl

end

theorem forms_object (members : List (String × Json)) :
    (object members).forms = .map :: members.flatMap fun member => member.2.forms := by
  have below : (memberNodes members).map (fun node => node.2.form) =
      members.flatMap fun member => member.2.forms := by
    induction members with
    | nil => rfl
    | cons member rest ih => simp [memberNodes, forms, ih]
  rw [← below]
  rfl

mutual

theorem counts_resolved (depth : Nat) (json : Json) :
    ((json.resolved.tally depth).withDeferred 0).Counts json.forms := by
  cases json with
  | object members =>
      rw [forms_object, resolved, Resolved.tally, ← Tally.visit_combine_withDeferred]
      exact (Tally.counts_visit depth).combine (counts_resolvedMembers (depth + 1) members)
  | _ => exact ⟨rfl, rfl, rfl, rfl, rfl⟩

theorem counts_resolvedMembers (depth : Nat) (members : List (String × Json)) :
    ((Resolved.entryTally depth (resolvedMembers members)).withDeferred 0).Counts
      (members.flatMap fun member => member.2.forms) := by
  cases members with
  | nil => exact Tally.counts_zero
  | cons member rest =>
      obtain ⟨key, value⟩ := member
      have first := counts_resolved depth value
      have later := counts_resolvedMembers depth rest
      rw [resolvedMembers, Resolved.entryTally, List.flatMap_cons]
      exact first.combine later

end

theorem count_forms (json : Json) (wanted : NodeForm) (test : Json → Bool)
    (told : ∀ node : Json, (node.form == wanted) = test node) :
    json.forms.count wanted = json.nodes.countP fun node => test node.2 := by
  rw [forms, List.count_eq_countP, List.countP_map]
  apply List.countP_congr
  intro node _
  rw [Function.comp_apply, told]

theorem countP_not_isObject (nodes : List (List String × Json)) :
    nodes.countP (fun node => !node.2.isObject) =
      nodes.countP (fun node => node.2.isArray) + nodes.countP (fun node => node.2.isScalar) := by
  induction nodes with
  | nil => rfl
  | cons node rest ih =>
      have one : (if !node.2.isObject then 1 else 0) =
          (if node.2.isArray then 1 else 0) + if node.2.isScalar then 1 else 0 := by
        cases node.2 <;> rfl
      rw [List.countP_cons, List.countP_cons, List.countP_cons, ih, one]
      omega

end Json

namespace RuleNode

mutual

/-- The forms of the nodes that are met when a tree is resolved, a document held as a
value opened. -/
def forms : RuleNode → List NodeForm
  | .map entries => .map :: entryForms entries
  | .value json => json.forms
  | .expression _ => [.expression]
  | .list _ => [.list]
  | .deferred _ produced => .deferred :: produced.forms

def entryForms : List (String × RuleNode) → List NodeForm
  | [] => []
  | (_, node) :: rest => node.forms ++ entryForms rest

end

/-- The forms of what a compilation meets: the deferred nodes on the way to the rules, and
the nodes of the rules themselves. -/
def compiledForms : RuleNode → List NodeForm
  | .map entries =>
      match Entries.find? entries Location.topKey with
      | some rules => rules.forms
      | none => []
  | .value json =>
      match json.member? Location.topKey with
      | some rules => rules.forms
      | none => []
  | .deferred _ produced => .deferred :: produced.compiledForms
  | _ => []

mutual

theorem counts_forms (depth : Nat) (node : RuleNode) :
    ((node.resolved.tally depth).withDeferred node.outline.deferrals).Counts node.forms := by
  cases node with
  | map entries =>
      rw [resolved, Resolved.tally, outline, Outline.deferrals,
        ← Tally.visit_combine_withDeferred]
      exact (Tally.counts_visit depth).combine (counts_entryForms (depth + 1) entries)
  | value json =>
      rw [outline, Json.deferrals_outline]
      exact json.counts_resolved depth
  | expression element => exact ⟨rfl, rfl, rfl, rfl, rfl⟩
  | list items => exact ⟨rfl, rfl, rfl, rfl, rfl⟩
  | deferred messages produced =>
      rw [outline, Outline.deferrals, ← Tally.deferral_combine_withDeferred]
      exact Tally.counts_deferral.combine (counts_forms depth produced)

theorem counts_entryForms (depth : Nat) (entries : List (String × RuleNode)) :
    ((Resolved.entryTally depth (resolvedEntries entries)).withDeferred
      (Outline.entryDeferrals (outlineEntries entries))).Counts (entryForms entries) := by
  cases entries with
  | nil => exact Tally.counts_zero
  | cons entry rest =>
      obtain ⟨key, node⟩ := entry
      exact (counts_forms depth node).combine (counts_entryForms depth rest)

end

theorem counts_compiledForms (tree : RuleNode) {rules : Resolved}
    (found : tree.resolved.rules? = some rules) :
    ((rules.tally 0).withDeferred tree.outline.rootDeferrals).Counts tree.compiledForms := by
  cases tree with
  | map entries =>
      rw [resolved, Resolved.rules?, resolvedEntries_eq_map, Entries.find?_map] at found
      obtain ⟨node, present, rfl⟩ := Option.map_eq_some_iff.mp found
      have deferrals : (map entries).outline.rootDeferrals = node.outline.deferrals := by
        simp only [outline, Outline.rootDeferrals, outlineEntries_eq_map, Entries.find?_map,
          present, Option.map_some]
      rw [deferrals, compiledForms, present]
      exact counts_forms 0 node
  | value json =>
      rw [resolved, Json.rules?_resolved] at found
      obtain ⟨node, present, rfl⟩ := Option.map_eq_some_iff.mp found
      rw [outline, Json.rootDeferrals_outline, compiledForms, present]
      exact node.counts_resolved 0
  | deferred messages produced =>
      rw [outline, Outline.rootDeferrals, ← Tally.deferral_combine_withDeferred]
      exact Tally.counts_deferral.combine (counts_compiledForms produced found)
  | _ => contradiction

/-- The counts of a compilation can be taken from its document, where objects, arrays and
scalars are counted outside of arrays, and from its tree, where the nodes are counted that
were met on the way. -/
theorem compile_counts_nodes (strictness : Strictness) (tree : RuleNode) (document : Json)
    (counts : Tally) (compiled : (tree.compile strictness).counted = .ok (document, counts)) :
    (∃ rules, document = .object [(Location.topKey, rules)] ∧
      counts.locations = rules.nodes.countP (fun node => node.2.isObject) ∧
      counts.indexHints = rules.nodes.countP (fun node => node.2.isArray) ∧
      counts.expressions + counts.scalars = rules.nodes.countP (fun node => node.2.isScalar) ∧
      counts.leaves = rules.nodes.countP (fun node => !node.2.isObject) ∧
      counts.maxDepth = rules.depth) ∧
    counts.expressions = tree.compiledForms.count .expression ∧
    counts.scalars = tree.compiledForms.count .value ∧
    counts.deferred = tree.compiledForms.count .deferred := by
  obtain ⟨rules, found, _, same⟩ := (compile_counted_eq_ok_iff _ _ _).mp compiled
  obtain ⟨rfl, rfl⟩ := Prod.mk.inj same
  have met := counts_compiledForms tree found
  refine ⟨⟨rules.document, rfl, ?_⟩, met.expressions, met.scalars, met.deferred⟩
  have opened : rules.Opened := Resolved.opened_of_rules? tree.opened_resolved found
  -- the document has the counts of a second compilation, where expressions are scalars
  have again : rules.document.resolved.tally 0 = (rules.tally 0).settled := by
    rw [rules.resolved_document opened, Resolved.tally_rendered]
  have written := rules.document.counts_resolved 0
  have deepest := rules.document.maxDepth_tally_resolved 0
  rw [again] at written deepest
  have objects := rules.document.count_forms .map Json.isObject (fun node => by cases node <;> rfl)
  have arrays := rules.document.count_forms .list Json.isArray (fun node => by cases node <;> rfl)
  have scalars := rules.document.count_forms .value Json.isScalar
    (fun node => by cases node <;> rfl)
  have lists := written.indexHints.trans arrays
  have others := written.scalars.trans scalars
  refine ⟨written.locations.trans objects, lists, others, ?_, deepest⟩
  calc (rules.tally 0).expressions + (rules.tally 0).indexHints + (rules.tally 0).scalars
      = (rules.tally 0).indexHints + ((rules.tally 0).expressions + (rules.tally 0).scalars) := by
        omega
    _ = _ := by
        rw [Json.countP_not_isObject, ← lists, ← others]
        rfl

theorem compile_counts_nodes_nested :
    (nested.compile .strict).counted = .ok (nestedDocument, ⟨3, 1, 4, 1, 1, 2⟩) ∧
    ∃ rules, nestedDocument = .object [(Location.topKey, rules)] ∧
      rules.nodes.countP (fun node => node.2.isObject) = 3 ∧ rules.depth = 2 ∧
      nested.compiledForms.count .deferred = 4 := by
  obtain ⟨⟨rules, same, objects, _, _, _, deepest⟩, _, _, deferred⟩ :=
    compile_counts_nodes .strict nested nestedDocument _ counted_compile_nested
  exact ⟨counted_compile_nested, rules, same, objects.symm, deepest.symm, deferred.symm⟩

end RuleNode

end AccessRules
