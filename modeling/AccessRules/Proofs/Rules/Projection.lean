import AccessRules.Proofs.Rules.Translation

namespace AccessRules

/-! Compiling what was compiled.

The document of a tree, taken as a tree, resolves to the same tree with every
expression replaced by its text. That changes neither the offences nor the
document, and it changes the counts in one way: expressions become scalars.
-/

/-- The counts of a second compilation. -/
def Tally.settled (tally : Tally) : Tally :=
  { tally with expressions := 0, deferred := 0, scalars := tally.expressions + tally.scalars }

theorem Tally.settled_combine (left right : Tally) :
    (left.combine right).settled = left.settled.combine right.settled := by
  have sums : left.expressions + right.expressions + (left.scalars + right.scalars) =
      left.expressions + left.scalars + (right.expressions + right.scalars) := by omega
  simp [combine, settled, sums]

def Json.isScalar : Json → Bool
  | .array _ => false
  | .object _ => false
  | _ => true

namespace Resolved

mutual

/-- No document is left unopened: each scalar is one. -/
def Opened : Resolved → Prop
  | .map entries => EntriesOpened entries
  | .list _ => True
  | .scalar json => json.isScalar = true
  | .expression _ => True

def EntriesOpened : List (String × Resolved) → Prop
  | [] => True
  | (_, child) :: rest => child.Opened ∧ EntriesOpened rest

end

mutual

def rendered : Resolved → Resolved
  | .map entries => .map (renderedEntries entries)
  | .list items => .list items
  | .scalar json => .scalar json
  | .expression element => .scalar (.string element.text)

def renderedEntries : List (String × Resolved) → List (String × Resolved)
  | [] => []
  | (key, child) :: rest => (key, child.rendered) :: renderedEntries rest

end

theorem isList_rendered (node : Resolved) : node.rendered.isList = node.isList := by
  cases node <;> rfl

theorem isPermission_rendered (node : Resolved) :
    node.rendered.isPermission = node.isPermission := by
  cases node <;> rfl

mutual

theorem document_rendered (node : Resolved) : node.rendered.document = node.document := by
  cases node with
  | map entries => simp only [rendered, document, documentEntries_rendered entries]
  | list items => rfl
  | scalar json => rfl
  | expression element => rfl

theorem documentEntries_rendered (entries : List (String × Resolved)) :
    documentEntries (renderedEntries entries) = documentEntries entries := by
  cases entries with
  | nil => rfl
  | cons entry rest =>
      obtain ⟨key, child⟩ := entry
      simp only [renderedEntries, documentEntries, document_rendered child,
        documentEntries_rendered rest]

end

mutual

theorem offences_rendered (strictness : Strictness) (location : Location) (node : Resolved) :
    node.rendered.offences strictness location = node.offences strictness location := by
  cases node with
  | map entries => exact entryOffences_rendered strictness location entries
  | list items => rfl
  | scalar json => rfl
  | expression element => rfl

theorem entryOffences_rendered (strictness : Strictness) (location : Location)
    (entries : List (String × Resolved)) :
    entryOffences strictness location (renderedEntries entries) =
      entryOffences strictness location entries := by
  cases entries with
  | nil => rfl
  | cons entry rest =>
      obtain ⟨key, child⟩ := entry
      simp only [renderedEntries, entryOffences_cons, offencesUnder, indexOffences,
        permissionOffences, isList_rendered, isPermission_rendered,
        offences_rendered strictness (location.child key) child,
        entryOffences_rendered strictness location rest]

end

mutual

theorem tally_rendered (depth : Nat) (node : Resolved) :
    node.rendered.tally depth = (node.tally depth).settled := by
  cases node with
  | map entries =>
      simp only [rendered, tally, Tally.settled_combine, entryTally_rendered (depth + 1) entries]
      rfl
  | list items => rfl
  | scalar json => rfl
  | expression element => rfl

theorem entryTally_rendered (depth : Nat) (entries : List (String × Resolved)) :
    entryTally depth (renderedEntries entries) = (entryTally depth entries).settled := by
  cases entries with
  | nil => rfl
  | cons entry rest =>
      obtain ⟨key, child⟩ := entry
      simp only [renderedEntries, entryTally, Tally.settled_combine, tally_rendered depth child,
        entryTally_rendered depth rest]

end

mutual

theorem resolved_document (node : Resolved) (opened : node.Opened) :
    node.document.resolved = node.rendered := by
  cases node with
  | map entries =>
      simp only [document, Json.resolved, rendered, resolvedMembers_documentEntries entries opened]
  | list items => rfl
  | scalar json => cases json <;> first | rfl | contradiction
  | expression element => rfl

theorem resolvedMembers_documentEntries (entries : List (String × Resolved))
    (opened : EntriesOpened entries) :
    Json.resolvedMembers (documentEntries entries) = renderedEntries entries := by
  cases entries with
  | nil => rfl
  | cons entry rest =>
      obtain ⟨key, child⟩ := entry
      simp only [documentEntries, Json.resolvedMembers, renderedEntries,
        resolved_document child opened.1, resolvedMembers_documentEntries rest opened.2]

end

theorem opened_of_find? {entries : List (String × Resolved)} {key : String} {child : Resolved}
    (opened : EntriesOpened entries) (found : Entries.find? entries key = some child) :
    child.Opened := by
  induction entries with
  | nil => contradiction
  | cons entry rest ih =>
      obtain ⟨first, node⟩ := entry
      rw [Entries.find?_cons] at found
      split at found
      · cases found
        exact opened.1
      · exact ih opened.2 found

theorem opened_of_rules? {root rules : Resolved} (opened : root.Opened)
    (found : root.rules? = some rules) : rules.Opened := by
  cases root with
  | map entries => exact opened_of_find? opened found
  | _ => contradiction

end Resolved

mutual

theorem Json.opened_resolved (json : Json) : json.resolved.Opened := by
  cases json with
  | object members => exact Json.entriesOpened_resolvedMembers members
  | array items => trivial
  | _ => rfl

theorem Json.entriesOpened_resolvedMembers (members : List (String × Json)) :
    Resolved.EntriesOpened (Json.resolvedMembers members) := by
  cases members with
  | nil => trivial
  | cons member rest =>
      obtain ⟨key, value⟩ := member
      exact ⟨Json.opened_resolved value, Json.entriesOpened_resolvedMembers rest⟩

end

mutual

theorem RuleNode.opened_resolved (node : RuleNode) : node.resolved.Opened := by
  cases node with
  | map entries => exact RuleNode.entriesOpened_resolvedEntries entries
  | value json => exact json.opened_resolved
  | expression element => trivial
  | list items => trivial
  | deferred messages produced => exact RuleNode.opened_resolved produced

theorem RuleNode.entriesOpened_resolvedEntries (entries : List (String × RuleNode)) :
    Resolved.EntriesOpened (RuleNode.resolvedEntries entries) := by
  cases entries with
  | nil => trivial
  | cons entry rest =>
      obtain ⟨key, node⟩ := entry
      exact ⟨RuleNode.opened_resolved node, RuleNode.entriesOpened_resolvedEntries rest⟩

end

mutual

/-- A document taken as a tree holds nothing deferred. -/
theorem Json.deferrals_outline (objectForm arrayForm : NodeForm) (json : Json) :
    (json.outline objectForm arrayForm).deferrals = 0 := by
  cases json with
  | object members => exact Json.deferrals_outlineMembers members
  | _ => rfl

theorem Json.deferrals_outlineMembers (members : List (String × Json)) :
    Outline.entryDeferrals (Json.outlineMembers members) = 0 := by
  cases members with
  | nil => rfl
  | cons member rest =>
      obtain ⟨key, value⟩ := member
      simp only [Json.outlineMembers, Outline.entryDeferrals,
        Json.deferrals_outline .map .list value, Json.deferrals_outlineMembers rest]

end

namespace RuleNode

theorem resolved_ofJson (json : Json) : (ofJson json).resolved = json.resolved := by
  rw [← resolved_outline, outline_ofJson, Json.resolved_outline]

/-- The document of a compilation, taken as a tree, has the same rules with their
expressions rendered, and nothing deferred. -/
theorem rules?_ofJson_document {tree : RuleNode} {rules : Resolved}
    (found : tree.resolved.rules? = some rules) :
    (ofJson (.object [(Location.topKey, rules.document)])).resolved.rules? =
      some rules.rendered := by
  have opened : rules.Opened := Resolved.opened_of_rules? tree.opened_resolved found
  rw [resolved_ofJson]
  simp only [Json.resolved, Json.resolvedMembers, Resolved.rules?, Entries.find?,
    rules.resolved_document opened, List.lookup_cons_self]

theorem rootDeferrals_ofJson_document (document : Json) :
    (ofJson (.object [(Location.topKey, document)])).outline.rootDeferrals = 0 := by
  rw [outline_ofJson]
  exact Json.deferrals_outline .map .list document

/-- Compiling is a projection: the document of a compilation compiles to itself. The
counts are those of the first compilation with every expression counted as a scalar. -/
theorem compile_ofJson_of_compile (strictness : Strictness) (tree : RuleNode) (document : Json)
    (compiled : (tree.compile strictness).result = .ok document) :
    ((ofJson document).compile strictness).result = .ok document ∧
    ((ofJson document).compile strictness).tally = (tree.compile strictness).tally.settled ∧
    ((ofJson document).compile strictness).tally.leaves =
      (tree.compile strictness).tally.leaves := by
  obtain ⟨rules, found, clean, rfl⟩ := (compile_eq_ok_iff _ _ _).mp compiled
  have again := rules?_ofJson_document found
  have cleanAgain : rules.rendered.offences strictness .top = [] := by
    rw [Resolved.offences_rendered, clean]
  have counts := tree.compile_tally strictness found clean
  have countsAgain := compile_tally strictness _ again cleanAgain
  rw [rootDeferrals_ofJson_document, Resolved.tally_rendered] at countsAgain
  refine ⟨(compile_eq_ok_iff _ _ _).mpr ⟨rules.rendered, again, cleanAgain, ?_⟩, ?_, ?_⟩
  · rw [Resolved.document_rendered]
  · rw [countsAgain, counts]
    rfl
  · rw [countsAgain, counts]
    simp only [Tally.leaves, Tally.withDeferred, Tally.settled]
    omega

theorem compile_ofJson_of_nested_rules :
    (nested.compile .strict).result = .ok nestedDocument ∧
    ((ofJson nestedDocument).compile .strict).result = .ok nestedDocument ∧
    ((ofJson nestedDocument).compile .strict).tally = (nested.compile .strict).tally.settled ∧
    ((ofJson nestedDocument).compile .strict).tally.leaves =
      (nested.compile .strict).tally.leaves :=
  ⟨compile_nested, compile_ofJson_of_compile .strict nested nestedDocument compile_nested⟩

end RuleNode

end AccessRules
