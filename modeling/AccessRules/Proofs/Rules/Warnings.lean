import AccessRules.Proofs.Rules.Translation

namespace AccessRules

variable {strictness : Strictness}

namespace Outline

mutual

/-- A sum over a tree, with a share for each expression and one for each deferred node. -/
def total (rendering : Element → Nat) (making : List Message → Nat) : Outline → Nat
  | .map _ entries => entryTotal rendering making entries
  | .list _ _ => 0
  | .scalar _ => 0
  | .expression element => rendering element
  | .deferred messages produced => making messages + produced.total rendering making

def entryTotal (rendering : Element → Nat) (making : List Message → Nat) :
    List (String × Outline) → Nat
  | [] => 0
  | (_, child) :: rest => child.total rendering making + entryTotal rendering making rest

end

/-- The same sum over what a compilation comes upon. -/
def rootTotal (rendering : Element → Nat) (making : List Message → Nat) : Outline → Nat
  | .map _ entries =>
      match Entries.find? entries Location.topKey with
      | some rules => rules.total rendering making
      | none => 0
  | .deferred messages produced => making messages + produced.rootTotal rendering making
  | _ => 0

variable {warning : Message}

theorem count_line (isWarning : warning.level = .warn) {line : Message}
    (plain : line.level ≠ .warn) (rest : List Message) :
    (line :: rest).count warning = rest.count warning := by
  apply List.count_cons_of_ne
  rintro rfl
  exact plain isWarning

theorem count_indexTranscript (node : Outline) (list : node.resolved.isList = true) :
    node.indexTranscript.count warning =
      node.total (fun element => element.warnings.count warning)
        (fun messages => messages.count warning) := by
  cases node with
  | list form items => rfl
  | deferred messages produced =>
      rw [indexTranscript, List.count_append, total, count_indexTranscript produced list]
  | _ => contradiction

mutual

theorem count_transcript (isWarning : warning.level = .warn) (location : Location)
    (node : Outline) (placed : node.resolved.ListsPlaced) :
    (node.transcript location).count warning =
      node.total (fun element => element.warnings.count warning)
        (fun messages => messages.count warning) := by
  cases node with
  | map form entries =>
      rw [transcript, count_line isWarning (by simp [Message.level])]
      exact count_entryTranscript isWarning location entries placed
  | list form items => rfl
  | scalar json => rfl
  | expression element =>
      rw [transcript, List.count_append, count_line isWarning (by simp [Message.level])]
      rfl
  | deferred messages produced =>
      rw [transcript, count_line isWarning (by simp [Message.level]), List.count_append, total,
        count_transcript isWarning location produced placed]

theorem count_entryTranscript (isWarning : warning.level = .warn) (location : Location)
    (entries : List (String × Outline))
    (placed : Resolved.EntriesPlaced (resolvedEntries entries)) :
    (entryTranscript location entries).count warning =
      entryTotal (fun element => element.warnings.count warning)
        (fun messages => messages.count warning) entries := by
  cases entries with
  | nil => rfl
  | cons entry rest =>
      obtain ⟨key, child⟩ := entry
      obtain ⟨here, later⟩ := placed
      rw [entryTranscript, List.count_append, entryTotal,
        count_entryTranscript isWarning location rest later]
      by_cases index : key = Key.indexOn
      · rw [if_pos index] at here ⊢
        rw [count_indexTranscript child here]
      · rw [if_neg index] at here ⊢
        rw [count_transcript isWarning (location.child key) child here]

end

theorem count_rootTranscript (isWarning : warning.level = .warn) (root : Outline)
    {rules : Resolved} (found : root.resolved.rules? = some rules) (placed : rules.ListsPlaced) :
    root.rootTranscript.count warning =
      root.rootTotal (fun element => element.warnings.count warning)
        (fun messages => messages.count warning) := by
  cases root with
  | map form entries =>
      rw [resolved, Resolved.rules?, find?_resolvedEntries] at found
      obtain ⟨node, present, rfl⟩ := Option.map_eq_some_iff.mp found
      simp only [rootTranscript, rootTotal, present]
      exact count_transcript isWarning .top node placed
  | deferred messages produced =>
      rw [rootTranscript, List.count_append, rootTotal,
        count_rootTranscript isWarning produced found placed]
  | _ => contradiction

end Outline

/-- A warning is reported as often as the expressions and the deferred nodes that the
compilation comes upon report it. -/
theorem RuleNode.count_compile_messages {warning : Message} (isWarning : warning.level = .warn)
    (tree : RuleNode) {document : Json}
    (compiled : (tree.compile strictness).result = .ok document) :
    (tree.compile strictness).messages.count warning =
      tree.outline.rootTotal (fun element => element.warnings.count warning)
        (fun messages => messages.count warning) := by
  obtain ⟨rules, found, clean, _⟩ := (compile_eq_ok_iff _ _ _).mp compiled
  have viewed : tree.outline.resolved.rules? = some rules := by rw [tree.resolved_outline, found]
  have placed := rules.listsPlaced_of_offences_eq_nil clean
  rw [compile_eq_completed tree found clean, List.count_append,
    Outline.count_line isWarning (by simp [Message.level]), List.count_nil, Nat.add_zero,
    Outline.count_rootTranscript isWarning tree.outline viewed placed]

end AccessRules
