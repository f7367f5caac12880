import AccessRules.Proofs.Rules.Warnings
import Mathlib.Algebra.GroupWithZero.Nat

namespace AccessRules

variable (rendering : Element → Nat) (making : List Message → Nat)

namespace Outline

mutual

theorem deferrals_eq_total (node : Outline) :
    node.deferrals = node.total (fun _ => 0) (fun _ => 1) := by
  cases node with
  | map form entries => exact entryDeferrals_eq_entryTotal entries
  | list form items => rfl
  | scalar json => rfl
  | expression element => rfl
  | deferred messages produced =>
      rw [deferrals, total, deferrals_eq_total produced, Nat.add_comm]

theorem entryDeferrals_eq_entryTotal (entries : List (String × Outline)) :
    entryDeferrals entries = entryTotal (fun _ => 0) (fun _ => 1) entries := by
  cases entries with
  | nil => rfl
  | cons entry rest =>
      obtain ⟨key, child⟩ := entry
      rw [entryDeferrals, entryTotal, deferrals_eq_total child, entryDeferrals_eq_entryTotal rest]

end

theorem rootDeferrals_eq_rootTotal (root : Outline) :
    root.rootDeferrals = root.rootTotal (fun _ => 0) (fun _ => 1) := by
  cases root with
  | map form entries =>
      rw [rootDeferrals, rootTotal]
      cases Entries.find? entries Location.topKey with
      | none => rfl
      | some rules => exact deferrals_eq_total rules
  | deferred messages produced =>
      rw [rootDeferrals, rootTotal, rootDeferrals_eq_rootTotal produced, Nat.add_comm]
  | _ => rfl

theorem rootTotal_map_cons (form : NodeForm) (key : String) (node : Outline)
    (rest : List (String × Outline)) :
    (map form ((key, node) :: rest)).rootTotal rendering making =
      if key = Location.topKey then node.total rendering making
      else (map form rest).rootTotal rendering making := by
  by_cases here : key = Location.topKey
  · simp [rootTotal, Entries.find?, here]
  · have differs : (Location.topKey == key) = false := by simpa using Ne.symm here
    simp [rootTotal, Entries.find?, List.lookup_cons, here, differs]

end Outline

/-- Which deferred nodes are put in front of the nodes of a tree, the outermost first,
each by what its making reports. The place of a node is given by the numbers of the
entries that lead to it, and by a zero for each deferred node of the tree on the way. -/
abbrev Layers := List Nat → List (List Message)

def Layers.below (layers : Layers) (step : Nat) : Layers := fun place => layers (step :: place)

namespace RuleNode

def behind (layers : List (List Message)) (node : RuleNode) : RuleNode :=
  layers.foldr deferred node

mutual

def deferAt (layers : Layers) : RuleNode → RuleNode
  | .map entries => behind (layers []) (.map (deferEntriesAt layers 0 entries))
  | .value json => behind (layers []) (.value json)
  | .expression element => behind (layers []) (.expression element)
  | .list items => behind (layers []) (.list items)
  | .deferred messages produced =>
      behind (layers []) (.deferred messages (produced.deferAt (layers.below 0)))

def deferEntriesAt (layers : Layers) (index : Nat) :
    List (String × RuleNode) → List (String × RuleNode)
  | [] => []
  | (key, node) :: rest =>
      (key, node.deferAt (layers.below index)) :: deferEntriesAt layers (index + 1) rest

end

mutual

def places : RuleNode → List (List Nat)
  | .map entries => [] :: entryPlaces 0 entries
  | .value _ => [[]]
  | .expression _ => [[]]
  | .list _ => [[]]
  | .deferred _ produced => [] :: produced.places.map (0 :: ·)

def entryPlaces (index : Nat) : List (String × RuleNode) → List (List Nat)
  | [] => []
  | (_, node) :: rest => node.places.map (index :: ·) ++ entryPlaces (index + 1) rest

end

def rulesPlaces (index : Nat) : List (String × RuleNode) → List (List Nat)
  | [] => []
  | (key, node) :: rest =>
      if key = Location.topKey then node.places.map (index :: ·) else rulesPlaces (index + 1) rest

/-- The places that a compilation comes upon: the root with what it produces, and all of
the rules. -/
def compiledPlaces : RuleNode → List (List Nat)
  | .map entries => [] :: rulesPlaces 0 entries
  | .deferred _ produced => [] :: produced.compiledPlaces.map (0 :: ·)
  | _ => [[]]

theorem resolved_behind (layers : List (List Message)) (node : RuleNode) :
    (behind layers node).resolved = node.resolved := by
  induction layers with
  | nil => rfl
  | cons messages rest ih => exact ih

theorem total_behind (layers : List (List Message)) (node : RuleNode) :
    (behind layers node).outline.total rendering making =
      node.outline.total rendering making + (layers.map making).sum := by
  induction layers with
  | nil => rfl
  | cons messages rest ih =>
      have step : (behind (messages :: rest) node).outline.total rendering making =
          making messages + (behind rest node).outline.total rendering making := rfl
      rw [step, ih, List.map_cons, List.sum_cons]
      omega

theorem rootTotal_behind (layers : List (List Message)) (node : RuleNode) :
    (behind layers node).outline.rootTotal rendering making =
      node.outline.rootTotal rendering making + (layers.map making).sum := by
  induction layers with
  | nil => rfl
  | cons messages rest ih =>
      have step : (behind (messages :: rest) node).outline.rootTotal rendering making =
          making messages + (behind rest node).outline.rootTotal rendering making := rfl
      rw [step, ih, List.map_cons, List.sum_cons]
      omega

mutual

theorem resolved_deferAt (layers : Layers) (node : RuleNode) :
    (node.deferAt layers).resolved = node.resolved := by
  cases node with
  | map entries =>
      rw [deferAt, resolved_behind, resolved, resolved, resolvedEntries_deferEntriesAt layers 0]
  | value json => rw [deferAt, resolved_behind]
  | expression element => rw [deferAt, resolved_behind]
  | list items => rw [deferAt, resolved_behind]
  | deferred messages produced =>
      rw [deferAt, resolved_behind, resolved, resolved, resolved_deferAt _ produced]

theorem resolvedEntries_deferEntriesAt (layers : Layers) (index : Nat)
    (entries : List (String × RuleNode)) :
    resolvedEntries (deferEntriesAt layers index entries) = resolvedEntries entries := by
  cases entries with
  | nil => rfl
  | cons entry rest =>
      obtain ⟨key, node⟩ := entry
      rw [deferEntriesAt, resolvedEntries, resolvedEntries, resolved_deferAt _ node,
        resolvedEntries_deferEntriesAt layers (index + 1) rest]

end

theorem flatMap_map_below (layers : Layers) (step : Nat) (places : List (List Nat)) :
    (places.map (step :: ·)).flatMap layers = places.flatMap (layers.below step) :=
  List.flatMap_map _ _ _

mutual

theorem total_deferAt (layers : Layers) (node : RuleNode) :
    (node.deferAt layers).outline.total rendering making =
      node.outline.total rendering making + ((node.places.flatMap layers).map making).sum := by
  cases node with
  | map entries =>
      have inside := entryTotal_deferEntriesAt layers 0 entries
      rw [deferAt, total_behind, places, List.flatMap_cons, List.map_append, List.sum_append]
      simp only [outline, Outline.total, inside]
      omega
  | value json => simp [deferAt, total_behind, places]
  | expression element => simp [deferAt, total_behind, places]
  | list items => simp [deferAt, total_behind, places]
  | deferred messages produced =>
      have inside := total_deferAt (layers.below 0) produced
      rw [deferAt, total_behind, places, List.flatMap_cons, List.map_append, List.sum_append,
        flatMap_map_below]
      simp only [outline, Outline.total, inside]
      omega

theorem entryTotal_deferEntriesAt (layers : Layers) (index : Nat)
    (entries : List (String × RuleNode)) :
    Outline.entryTotal rendering making (outlineEntries (deferEntriesAt layers index entries)) =
      Outline.entryTotal rendering making (outlineEntries entries) +
        (((entryPlaces index entries).flatMap layers).map making).sum := by
  cases entries with
  | nil => rfl
  | cons entry rest =>
      obtain ⟨key, node⟩ := entry
      have first := total_deferAt (layers.below index) node
      have later := entryTotal_deferEntriesAt layers (index + 1) rest
      rw [entryPlaces, List.flatMap_append, List.map_append, List.sum_append, flatMap_map_below]
      simp only [deferEntriesAt, outlineEntries, Outline.entryTotal, first, later]
      omega

end

theorem rootTotal_deferEntriesAt (layers : Layers) (index : Nat) (form : NodeForm)
    (entries : List (String × RuleNode)) :
    (Outline.map form (outlineEntries (deferEntriesAt layers index entries))).rootTotal
        rendering making =
      (Outline.map form (outlineEntries entries)).rootTotal rendering making +
        (((rulesPlaces index entries).flatMap layers).map making).sum := by
  induction entries generalizing index with
  | nil => rfl
  | cons entry rest ih =>
      obtain ⟨key, node⟩ := entry
      simp only [deferEntriesAt, outlineEntries, Outline.rootTotal_map_cons, rulesPlaces]
      by_cases here : key = Location.topKey
      · simp only [if_pos here, total_deferAt, flatMap_map_below]
      · simp only [if_neg here, ih]

theorem rootTotal_deferAt (layers : Layers) (tree : RuleNode) :
    (tree.deferAt layers).outline.rootTotal rendering making =
      tree.outline.rootTotal rendering making +
        ((tree.compiledPlaces.flatMap layers).map making).sum := by
  cases tree with
  | map entries =>
      have inside := rootTotal_deferEntriesAt rendering making layers 0 .map entries
      rw [deferAt, rootTotal_behind, compiledPlaces, List.flatMap_cons, List.map_append,
        List.sum_append, outline, outline, inside]
      omega
  | value json => simp [deferAt, rootTotal_behind, compiledPlaces]
  | expression element => simp [deferAt, rootTotal_behind, compiledPlaces]
  | list items => simp [deferAt, rootTotal_behind, compiledPlaces]
  | deferred messages produced =>
      have inside := rootTotal_deferAt (layers.below 0) produced
      rw [deferAt, rootTotal_behind, compiledPlaces, List.flatMap_cons, List.map_append,
        List.sum_append, flatMap_map_below]
      simp only [outline, Outline.rootTotal, inside]
      omega

theorem rootDeferrals_deferAt (layers : Layers) (tree : RuleNode) :
    (tree.deferAt layers).outline.rootDeferrals =
      tree.outline.rootDeferrals + (tree.compiledPlaces.flatMap layers).length := by
  have shares := rootTotal_deferAt (fun _ => 0) (fun _ => 1) layers tree
  rw [← Outline.rootDeferrals_eq_rootTotal, ← Outline.rootDeferrals_eq_rootTotal,
    List.map_const', List.sum_replicate_nat, Nat.mul_one] at shares
  exact shares

/-- Deferred nodes in front of any nodes of a tree, any number of them in front of each,
change nothing in what a compilation comes to but the count of those that were made: all
that were put before a place the compilation comes upon. The warnings say so of each of
them, since what its making reports is reported once. -/
theorem compile_deferAt (strictness : Strictness) (tree : RuleNode) (layers : Layers) :
    ((tree.deferAt layers).compile strictness).counted =
      (tree.compile strictness).counted.map (fun outcome =>
        (outcome.1, outcome.2.withDeferred
          (outcome.2.deferred + (tree.compiledPlaces.flatMap layers).length))) ∧
    ∀ document, (tree.compile strictness).result = .ok document →
      ∀ warning : Message, warning.level = .warn →
        ((tree.deferAt layers).compile strictness).messages.count warning =
          (tree.compile strictness).messages.count warning +
            (tree.compiledPlaces.flatMap layers).flatten.count warning := by
  refine ⟨?_, ?_⟩
  · rw [compile_counted, compile_counted, resolved_deferAt, rootDeferrals_deferAt]
    cases tree.resolved.rules? with
    | none => rfl
    | some rules =>
        simp only
        cases rules.offences strictness .top with
        | nil => rfl
        | cons failure rest => rfl
  · intro document compiled warning isWarning
    have again : ((tree.deferAt layers).compile strictness).result = .ok document := by
      rw [compile_result, resolved_deferAt, ← compile_result, compiled]
    rw [count_compile_messages isWarning _ again, count_compile_messages isWarning _ compiled,
      rootTotal_deferAt, List.count_flatten]

/-- Two deferred nodes in front of the permission of `nested`, and two beside its rules. -/
def layered : Layers := fun place =>
  if place = [0, 1, 0, 0] then [[.argumentQuote "it's"], []]
  else if place = [0, 0] then [[.argumentQuote "it's"], []]
  else []

theorem compile_deferAt_nested :
    (nested.compile .strict).counted = .ok (nestedDocument, ⟨3, 1, 4, 1, 1, 2⟩) ∧
    ((nested.deferAt layered).compile .strict).counted =
      .ok (nestedDocument, ⟨3, 1, 6, 1, 1, 2⟩) ∧
    ((nested.deferAt layered).compile .strict).messages.count (.argumentQuote "it's") = 1 := by
  have added : nested.compiledPlaces.flatMap layered = [[.argumentQuote "it's"], []] := rfl
  have silent : (nested.compile .strict).messages.count (.argumentQuote "it's") = 0 := by
    rw [compile_eq_outline]
    rfl
  obtain ⟨counted, reported⟩ := compile_deferAt .strict nested layered
  have once := reported nestedDocument compile_nested (.argumentQuote "it's") rfl
  rw [counted_compile_nested, added] at counted
  rw [silent, added] at once
  exact ⟨counted_compile_nested, counted, once⟩

end RuleNode

end AccessRules
