import AccessRules.Proofs.Rules.Completed

namespace AccessRules

namespace Resolved

mutual

/-- Lists stand under index keys alone, and nothing else stands there. -/
def ListsPlaced : Resolved → Prop
  | .map entries => EntriesPlaced entries
  | .list _ => False
  | .scalar _ => True
  | .expression _ => True

def EntriesPlaced : List (String × Resolved) → Prop
  | [] => True
  | (key, child) :: rest =>
      (if key = Key.indexOn then child.isList = true else child.ListsPlaced) ∧ EntriesPlaced rest

end

mutual

theorem listsPlaced_of_offences_eq_nil {strictness : Strictness} {location : Location}
    (node : Resolved) (clean : node.offences strictness location = []) : node.ListsPlaced := by
  cases node with
  | map entries => exact entriesPlaced_of_entryOffences_eq_nil entries clean
  | list items => exact absurd clean (List.cons_ne_nil _ _)
  | scalar json => trivial
  | expression element => trivial

theorem entriesPlaced_of_entryOffences_eq_nil {strictness : Strictness} {location : Location}
    (entries : List (String × Resolved))
    (clean : entryOffences strictness location entries = []) : EntriesPlaced entries := by
  cases entries with
  | nil => trivial
  | cons entry rest =>
      obtain ⟨key, child⟩ := entry
      rw [entryOffences_cons] at clean
      obtain ⟨here, later⟩ := List.append_eq_nil_iff.mp clean
      have below := ((offencesUnder_eq_nil_iff _ _ _ _).mp here).2
      refine ⟨?_, entriesPlaced_of_entryOffences_eq_nil rest later⟩
      by_cases index : key = Key.indexOn
      · simpa only [if_pos index] using below
      · rw [if_neg index] at below ⊢
        exact listsPlaced_of_offences_eq_nil child below.1

end

end Resolved

namespace Entries

variable {α : Type u}

def only (entries : Entries α) (key : String) : Entries α :=
  entries.filter fun entry => entry.1 == key

theorem find?_only (entries : Entries α) (key : String) :
    (entries.only key).find? key = entries.find? key := by
  induction entries with
  | nil => rfl
  | cons entry rest ih =>
      obtain ⟨first, value⟩ := entry
      by_cases here : first = key
      · simp [only, find?_cons, here]
      · rw [find?_cons, if_neg (Ne.symm here), ← ih]
        simp [only, here]

end Entries

namespace RuleNode

def withoutSiblings : RuleNode → RuleNode
  | .map entries => .map (Entries.only entries Location.topKey)
  | .value (.object members) => .value (.object (Entries.only members Location.topKey))
  | .deferred messages produced => .deferred messages produced.withoutSiblings
  | other => other

theorem compileRoot_withoutSiblings (strictness : Strictness) (tree : RuleNode) :
    tree.withoutSiblings.outline.compileRoot strictness = tree.outline.compileRoot strictness := by
  fun_induction withoutSiblings tree with
  | case1 entries =>
      simp only [outline, Outline.compileRoot, outlineEntries_eq_map, Entries.find?_map,
        Entries.find?_only]
  | case2 members =>
      simp only [outline, Json.outline, Outline.compileRoot,
        Json.outlineMembers_eq_map, Entries.find?_map, Entries.find?_only]
  | case3 messages produced ih => simp only [outline, Outline.compileRoot, ih]
  | case4 other => rfl

/-- The document of a compilation is that of the rules under the top-level key. What
stands beside them shows nowhere: not in the document, the counts or the messages, and
not in a failure. -/
theorem compile_translates_rules (strictness : Strictness) (tree : RuleNode) :
    (∀ document, (tree.compile strictness).result = .ok document →
      ∃ rules, tree.resolved.rules? = some rules ∧ rules.ListsPlaced ∧
        document = .object [(Location.topKey, rules.document)]) ∧
    tree.withoutSiblings.compile strictness = tree.compile strictness := by
  refine ⟨?_, ?_⟩
  · intro document compiled
    obtain ⟨rules, found, clean, same⟩ := (compile_eq_ok_iff _ _ _).mp compiled
    exact ⟨rules, found, rules.listsPlaced_of_offences_eq_nil clean, same⟩
  · rw [compile_eq_outline, compile_eq_outline, compileRoot_withoutSiblings]

/-- A tree with deferred nodes at its root, at its rules and at a permission, with a
document among the rules, and with something beside them. -/
def nested : RuleNode :=
  .deferred [] (.map [
    ("comment", .list [.null]),
    (Location.topKey, .deferred [] (.map [
      (Key.read, .deferred [] (.deferred [] (.expression
        (.chain [.member "auth", .member "uid"])))),
      ("users", .value (.object [
        (Key.indexOn, .array [.object [(Key.indexOn, .null)]]),
        ("$user", .object [(Key.validate, .boolean true)])]))]))])

def nestedDocument : Json :=
  .object [(Location.topKey, .object [
    (Key.read, .string "auth.uid"),
    ("users", .object [
      (Key.indexOn, .array [.object [(Key.indexOn, .null)]]),
      ("$user", .object [(Key.validate, .boolean true)])])])]

theorem counted_compile_nested :
    (nested.compile .strict).counted = .ok (nestedDocument, ⟨3, 1, 4, 1, 1, 2⟩) := by
  rw [compile_eq_outline]
  rfl

theorem compile_nested : (nested.compile .strict).result = .ok nestedDocument :=
  (Run.counted_eq_ok_iff.mp counted_compile_nested).1

theorem compile_translates_nested_rules :
    (nested.compile .strict).result = .ok nestedDocument ∧
    (∃ rules, nested.resolved.rules? = some rules ∧ rules.ListsPlaced ∧
      nestedDocument = .object [(Location.topKey, rules.document)]) ∧
    nested.withoutSiblings.compile .strict = nested.compile .strict :=
  ⟨compile_nested, (compile_translates_rules .strict nested).1 _ compile_nested,
    (compile_translates_rules .strict nested).2⟩

end RuleNode

end AccessRules
