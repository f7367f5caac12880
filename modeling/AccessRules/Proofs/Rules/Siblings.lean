import AccessRules.Proofs.Rules.Reordering
import AccessRules.Proofs.Rules.Strictness

namespace AccessRules

namespace Resolved

variable {strictness : Strictness} {location : Location}

theorem isList_reorder (order : Reordering) (node : Resolved) :
    (node.reorder order).isList = node.isList := by
  cases node <;> rfl

theorem isPermission_reorder (order : Reordering) (node : Resolved) :
    (node.reorder order).isPermission = node.isPermission := by
  cases node with
  | scalar json => cases json <;> rfl
  | _ => rfl

theorem entryOffences_eq_flatMap (entries : List (String × Resolved)) :
    entryOffences strictness location entries =
      entries.flatMap fun entry =>
        entry.2.offencesUnder strictness entry.1 (location.child entry.1) := by
  induction entries with
  | nil => rfl
  | cons entry rest ih => rw [entryOffences_cons, ih, List.flatMap_cons]

theorem offencesUnder_reorder (order : Reordering) (key : String) (child : Resolved)
    (below : ((child.reorder order).offences strictness location).Perm
      (child.offences strictness location)) :
    ((child.reorder order).offencesUnder strictness key location).Perm
      (child.offencesUnder strictness key location) := by
  have lists : (child.reorder order).indexOffences location = child.indexOffences location := by
    rw [indexOffences, indexOffences, isList_reorder]
  have permissions : (child.reorder order).permissionOffences strictness key location =
      child.permissionOffences strictness key location := by
    rw [permissionOffences, permissionOffences, isPermission_reorder]
  unfold offencesUnder
  cases Key.offence? strictness key location with
  | some failure => exact .refl _
  | none =>
      by_cases index : key = Key.indexOn
      · simp only [if_pos index, lists, List.Perm.refl]
      · simp only [if_neg index, permissions]
        exact below.append_right _

mutual

theorem offences_reorder (order : Reordering) (location : Location) (node : Resolved) :
    ((node.reorder order).offences strictness location).Perm
      (node.offences strictness location) := by
  cases node with
  | map entries =>
      have moved := (order.arrange_perm (reorderEntries order entries)).flatMap_right
        fun entry => entry.2.offencesUnder strictness entry.1 (location.child entry.1)
      rw [← entryOffences_eq_flatMap, ← entryOffences_eq_flatMap] at moved
      exact moved.trans (entryOffences_reorderEntries order location entries)
  | list items => exact .refl _
  | scalar json => exact .refl _
  | expression element => exact .refl _

theorem entryOffences_reorderEntries (order : Reordering) (location : Location)
    (entries : List (String × Resolved)) :
    (entryOffences strictness location (reorderEntries order entries)).Perm
      (entryOffences strictness location entries) := by
  cases entries with
  | nil => exact .refl _
  | cons entry rest =>
      obtain ⟨key, child⟩ := entry
      have below := offences_reorder (order.below (.key key)) (location.child key) child
      have later := entryOffences_reorderEntries order location rest
      rw [reorderEntries, entryOffences_cons, entryOffences_cons]
      exact (offencesUnder_reorder _ key child below).append later

end

end Resolved

theorem Tally.combine_comm (left right : Tally) : left.combine right = right.combine left := by
  simp [combine, Nat.add_comm, Nat.max_comm]

namespace Resolved

theorem entryTally_of_perm (depth : Nat) {left right : List (String × Resolved)}
    (moved : left.Perm right) : entryTally depth left = entryTally depth right := by
  induction moved with
  | nil => rfl
  | cons entry _ ih => simp only [entryTally, ih]
  | swap first second rest =>
      simp only [entryTally]
      rw [← Tally.combine_assoc, ← Tally.combine_assoc, Tally.combine_comm (first.2.tally depth)]
  | trans _ _ earlier later => exact earlier.trans later

mutual

theorem tally_reorder (order : Reordering) (depth : Nat) (node : Resolved) :
    (node.reorder order).tally depth = node.tally depth := by
  cases node with
  | map entries =>
      rw [reorder, tally, entryTally_of_perm _ (order.arrange_perm _),
        entryTally_reorderEntries order (depth + 1) entries]
      rfl
  | list items => rfl
  | scalar json => rfl
  | expression element => rfl

theorem entryTally_reorderEntries (order : Reordering) (depth : Nat)
    (entries : List (String × Resolved)) :
    entryTally depth (reorderEntries order entries) = entryTally depth entries := by
  cases entries with
  | nil => rfl
  | cons entry rest =>
      obtain ⟨key, child⟩ := entry
      rw [reorderEntries, entryTally, tally_reorder (order.below (.key key)) depth child,
        entryTally_reorderEntries order depth rest]
      rfl

end

end Resolved

theorem Outline.entryDeferrals_of_perm {left right : List (String × Outline)}
    (moved : left.Perm right) :
    Outline.entryDeferrals left = Outline.entryDeferrals right := by
  induction moved with
  | nil => rfl
  | cons entry _ ih => simp only [Outline.entryDeferrals, ih]
  | swap first second rest =>
      simp only [Outline.entryDeferrals]
      omega
  | trans _ _ earlier later => exact earlier.trans later

namespace RuleNode

mutual

theorem deferrals_reorder (order : Reordering) (node : RuleNode) :
    (node.reorder order).outline.deferrals = node.outline.deferrals := by
  cases node with
  | map entries =>
      have moved := (order.arrange_perm (reorderEntries order entries)).map
        fun entry => (entry.1, entry.2.outline)
      rw [← outlineEntries_eq_map, ← outlineEntries_eq_map] at moved
      rw [reorder, outline, Outline.deferrals, Outline.entryDeferrals_of_perm moved,
        entryDeferrals_reorderEntries order entries]
      rfl
  | value json => rw [reorder, outline, outline, Json.deferrals_outline, Json.deferrals_outline]
  | expression element => rfl
  | list items => rfl
  | deferred messages produced =>
      rw [reorder, outline, Outline.deferrals, deferrals_reorder order produced]
      rfl

theorem entryDeferrals_reorderEntries (order : Reordering) (entries : List (String × RuleNode)) :
    Outline.entryDeferrals (outlineEntries (reorderEntries order entries)) =
      Outline.entryDeferrals (outlineEntries entries) := by
  cases entries with
  | nil => rfl
  | cons entry rest =>
      obtain ⟨key, node⟩ := entry
      rw [reorderEntries, outlineEntries, Outline.entryDeferrals,
        deferrals_reorder (order.below (.key key)) node, entryDeferrals_reorderEntries order rest]
      rfl

end

end RuleNode

namespace Entries

variable {α : Type u}

theorem keys_map_named {β : Type v} (convert : String → α → β) (entries : Entries α) :
    keys (entries.map fun entry => (entry.1, convert entry.1 entry.2)) = entries.keys := by
  rw [keys, List.map_map]
  rfl

/-- Where each name stands once, its value does not depend on the order. -/
theorem find?_of_perm {left right : Entries α} (moved : left.Perm right)
    (distinct : left.keys.Nodup) (key : String) : left.find? key = right.find? key := by
  induction moved with
  | nil => rfl
  | cons entry _ ih =>
      obtain ⟨name, value⟩ := entry
      rw [find?_cons, find?_cons, ih (List.nodup_cons.mp distinct).2]
  | swap first second rest =>
      obtain ⟨name, value⟩ := first
      obtain ⟨other, old⟩ := second
      have differs : other ≠ name := by
        intro same
        exact (List.nodup_cons.mp distinct).1 (by simp [same])
      simp only [find?_cons]
      by_cases here : key = name
      · rw [if_pos here, if_pos here, if_neg (here ▸ differs.symm)]
      · rw [if_neg here, if_neg here]
  | trans earlier _ first second =>
      have names := ((earlier.map Prod.fst).nodup_iff).mp distinct
      exact (first distinct).trans (second names)

end Entries

namespace Resolved

def keys : Resolved → List String
  | .map entries => Entries.keys entries
  | _ => []

theorem keys_reorderEntries (order : Reordering) (entries : List (String × Resolved)) :
    Entries.keys (reorderEntries order entries) = Entries.keys entries := by
  rw [reorderEntries_eq_map]
  exact Entries.keys_map_named (fun name => reorder (order.below (.key name))) entries

theorem find?_reorderEntries (order : Reordering) (entries : List (String × Resolved))
    (key : String) :
    Entries.find? (reorderEntries order entries) key =
      (Entries.find? entries key).map (reorder (order.below (.key key))) := by
  rw [reorderEntries_eq_map]
  exact Entries.find?_map_named (fun name => reorder (order.below (.key name))) entries key

theorem rules?_reorder (order : Reordering) (root : Resolved) (distinct : root.keys.Nodup) :
    (root.reorder order).rules? =
      root.rules?.map (reorder (order.below (.key Location.topKey))) := by
  cases root with
  | map entries =>
      have moved := (order.arrange_perm (reorderEntries order entries)).symm
      have names : (Entries.keys (reorderEntries order entries)).Nodup := by
        rw [keys_reorderEntries]
        exact distinct
      rw [reorder, rules?, ← Entries.find?_of_perm moved names, find?_reorderEntries]
      rfl
  | _ => rfl

end Resolved

namespace RuleNode

theorem keys_resolved_map (entries : List (String × RuleNode)) :
    (map entries).resolved.keys = Entries.keys entries := by
  rw [resolved, Resolved.keys, resolvedEntries_eq_map]
  exact Entries.keys_map_named (fun _ => RuleNode.resolved) entries

theorem keys_reorderEntries (order : Reordering) (entries : List (String × RuleNode)) :
    Entries.keys (reorderEntries order entries) = Entries.keys entries := by
  rw [reorderEntries_eq_map]
  exact Entries.keys_map_named (fun name => reorder (order.below (.key name))) entries

theorem find?_reorderEntries (order : Reordering) (entries : List (String × RuleNode))
    (key : String) :
    Entries.find? (reorderEntries order entries) key =
      (Entries.find? entries key).map (reorder (order.below (.key key))) := by
  rw [reorderEntries_eq_map]
  exact Entries.find?_map_named (fun name => reorder (order.below (.key name))) entries key

theorem rootDeferrals_reorder (order : Reordering) (tree : RuleNode)
    (distinct : tree.resolved.keys.Nodup) :
    (tree.reorder order).outline.rootDeferrals = tree.outline.rootDeferrals := by
  cases tree with
  | map entries =>
      have moved := (order.arrange_perm (reorderEntries order entries)).symm
      have names : (Entries.keys (reorderEntries order entries)).Nodup := by
        rwa [keys_reorderEntries, ← keys_resolved_map]
      have found := Entries.find?_of_perm moved names Location.topKey
      rw [find?_reorderEntries] at found
      simp only [reorder, outline, Outline.rootDeferrals, outlineEntries_eq_map,
        Entries.find?_map, ← found]
      cases Entries.find? entries Location.topKey with
      | none => rfl
      | some rules => exact deferrals_reorder _ rules
  | value json =>
      rw [reorder, outline, outline, Json.rootDeferrals_outline, Json.rootDeferrals_outline]
  | expression element => rfl
  | list items => rfl
  | deferred messages produced =>
      rw [reorder, outline, Outline.rootDeferrals, rootDeferrals_reorder order produced distinct]
      rfl

theorem offences_reorder (order : Reordering) (strictness : Strictness) (tree : RuleNode)
    (distinct : tree.resolved.keys.Nodup) :
    ((tree.reorder order).offences strictness).Perm (tree.offences strictness) := by
  rw [offences, offences, resolved_reorder, Resolved.rules?_reorder order _ distinct]
  cases tree.resolved.rules? with
  | none => exact .refl _
  | some rules => exact rules.offences_reorder _ .top

theorem compiles_iff (strictness : Strictness) (tree : RuleNode) :
    (∃ document, (tree.compile strictness).result = .ok document) ↔
      tree.offences strictness = [] := by
  rw [compile_result, offences]
  cases tree.resolved.rules? <;> simp [verdict_eq_ok_iff]

theorem reorder_topKey (order : Reordering) (rules : Json) :
    (Json.object [(Location.topKey, rules)]).reorder order =
      .object [(Location.topKey, rules.reorder (order.below (.key Location.topKey)))] := by
  rw [Json.reorder, Json.reorderMembers, Json.reorderMembers, order.arrange_singleton]

/-- The order of siblings shows in the document and nowhere else. A tree whose maps are
put into another order has the same offences, so it compiles if the tree does, to the same
document in the same other order and with the same counts. The map at the root has to hold
each key once, as all maps do: otherwise its order tells which rules are compiled. -/
theorem compile_reorder (strictness : Strictness) (tree : RuleNode) (order : Reordering)
    (distinct : tree.resolved.keys.Nodup) :
    ((∃ document, ((tree.reorder order).compile strictness).result = .ok document) ↔
      ∃ document, (tree.compile strictness).result = .ok document) ∧
    (∀ document counts, (tree.compile strictness).counted = .ok (document, counts) →
      ((tree.reorder order).compile strictness).counted = .ok (document.reorder order, counts)) ∧
    ((tree.reorder order).offences strictness).Perm (tree.offences strictness) := by
  have moved := tree.offences_reorder order strictness distinct
  have rulesMoved := Resolved.rules?_reorder order tree.resolved distinct
  rw [← resolved_reorder] at rulesMoved
  refine ⟨?_, ?_, moved⟩
  · rw [compiles_iff, compiles_iff]
    constructor
    · intro clean
      exact (clean ▸ moved).symm.eq_nil
    · intro clean
      exact (clean ▸ moved).eq_nil
  · intro document counts compiled
    obtain ⟨rules, found, clean, same⟩ := (compile_counted_eq_ok_iff _ _ _).mp compiled
    obtain ⟨rfl, rfl⟩ := Prod.mk.inj same
    let inside := order.below (.key Location.topKey)
    have foundMoved : (tree.reorder order).resolved.rules? = some (rules.reorder inside) := by
      rw [rulesMoved, found]
      rfl
    have kept : ((rules.reorder inside).offences strictness .top).Perm [] :=
      clean ▸ rules.offences_reorder inside .top
    refine (compile_counted_eq_ok_iff _ _ _).mpr
      ⟨rules.reorder inside, foundMoved, kept.eq_nil, ?_⟩
    rw [Resolved.document_reorder, Resolved.tally_reorder, reorder_topKey,
      tree.rootDeferrals_reorder order distinct]

/-- Every map back to front. -/
def backward : Reordering := fun _ _ => Fin.revPerm

def backwardDocument : Json :=
  .object [(Location.topKey, .object [
    ("users", .object [
      ("$user", .object [(Key.validate, .boolean true)]),
      (Key.indexOn, .array [.object [(Key.indexOn, .null)]])]),
    (Key.read, .string "auth.uid")])]

theorem compile_reorder_nested :
    nested.resolved.keys.Nodup ∧
    (nested.compile .strict).counted = .ok (nestedDocument, ⟨3, 1, 4, 1, 1, 2⟩) ∧
    ((nested.reorder backward).compile .strict).counted =
      .ok (backwardDocument, ⟨3, 1, 4, 1, 1, 2⟩) := by
  have distinct : nested.resolved.keys.Nodup := by decide
  have turned : nestedDocument.reorder backward = backwardDocument := rfl
  have again := (compile_reorder .strict nested backward distinct).2.1 _ _ counted_compile_nested
  rw [turned] at again
  exact ⟨distinct, counted_compile_nested, again⟩

end RuleNode

end AccessRules
