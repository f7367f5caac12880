import AccessRules.Proofs.Rules.Offences

namespace AccessRules

/-! What a compilation comes to.

The compiler stops at the first failure, the list of offences goes on to the end.
Both walk in the same order, so the result of a compilation is the head of that
list, or the document of the resolved tree if the list is empty.
-/

variable {α β : Type}

/-- The result of a walk that stops at the first of the failures on its way. -/
def verdict (failures : List CompileFailure) (value : α) : Except CompileFailure α :=
  match failures with
  | [] => .ok value
  | failure :: _ => .error failure

theorem verdict_eq_error_iff {failures : List CompileFailure} {value : α}
    {failure : CompileFailure} :
    verdict failures value = .error failure ↔ failures.head? = some failure := by
  cases failures <;> simp [verdict]

theorem verdict_eq_ok_iff {failures : List CompileFailure} {value last : α} :
    verdict failures value = .ok last ↔ failures = [] ∧ value = last := by
  cases failures <;> simp [verdict]

/-- Two walks in a row stop where the first of them does, or else where the second does. -/
theorem verdict_bind {first second : List CompileFailure} {value : α} {last : β}
    {next : α → Except CompileFailure β} (later : next value = verdict second last) :
    (verdict first value >>= next) = verdict (first ++ second) last := by
  cases first with
  | nil => exact later
  | cons failure rest => rfl

theorem verdict_map (failures : List CompileFailure) (value : α) (convert : α → β) :
    (verdict failures value >>= fun value => pure (convert value)) =
      verdict failures (convert value) := by
  cases failures <;> rfl

namespace Key

theorem classify_of_indexOn : classify indexOn = .indexOn := rfl

theorem classify_of_mem_permissions {key : String} (member : key ∈ permissions) :
    classify key = .permission := by
  have apart : indexOn ∉ permissions := by decide
  have differs : key ≠ indexOn := fun same => apart (same ▸ member)
  simp [classify, differs, member]

theorem classify_of_not_mem_reserved {key : String} (plain : key ∉ reserved) :
    classify key =
      if key.toList.head? = some '.' then .unknownReserved
      else if key.toList.head? = some '$' then .wildcard
      else .child := by
  have differs : key ≠ indexOn := List.ne_of_not_mem_cons plain
  have absent : key ∉ permissions := List.not_mem_of_not_mem_cons plain
  simp [classify, differs, absent]

theorem head_of_mem_reserved {key : String} (member : key ∈ reserved) :
    key.toList.head? = some '.' := by
  have dotted : ∀ name ∈ reserved, name.toList.head? = some '.' := by decide
  exact dotted key member

/-- A key passes unless something is wrong with it. -/
theorem accept_eq (strictness : Strictness) (key : String) (location : Location) :
    accept strictness key location =
      match offence? strictness key location with
      | some failure => .fail failure
      | none => pure (classify key) := by
  by_cases member : key ∈ reserved
  · have allowed : offence? strictness key location = none := by
      simp [offence?, member, head_of_mem_reserved member]
    rw [allowed]
    rcases List.mem_cons.mp member with rfl | permission
    · rfl
    · simp [accept, classify_of_mem_permissions permission, Run.pure_eq_done]
  · have kind := classify_of_not_mem_reserved member
    unfold accept offence?
    by_cases dotted : key.toList.head? = some '.'
    · rw [kind]
      cases enabled : strictness.reservedKeys <;>
        simp [dotted, member, Run.pure_eq_done]
    · by_cases dollar : key.toList.head? = some '$'
      · rw [kind]
        cases enabled : strictness.wildcards <;> cases valid : isValidWildcard key <;>
          simp [dollar, Run.pure_eq_done]
      · rw [kind]
        simp [dotted, dollar, Run.pure_eq_done]

/-- The index key and the permissions are told apart by their exact names. -/
theorem dispatch_eq (key : String) (index permission child : α) :
    (match classify key with
      | .indexOn => index
      | .permission => permission
      | _ => child) =
      if key = indexOn then index else if key ∈ permissions then permission else child := by
  by_cases named : key = indexOn
  · rw [if_pos named, named, classify_of_indexOn]
  · rw [if_neg named]
    by_cases granted : key ∈ permissions
    · rw [if_pos granted, classify_of_mem_permissions granted]
    · rw [if_neg granted]
      have plain : key ∉ reserved := List.not_mem_cons_of_ne_of_not_mem named granted
      rw [classify_of_not_mem_reserved plain]
      by_cases dotted : key.toList.head? = some '.' <;>
        by_cases dollar : key.toList.head? = some '$' <;> simp [dotted, dollar]

end Key

namespace Outline

def compileEntry (strictness : Strictness) (key : String) (location : Location)
    (child : Outline) : Run Json := do
  match ← Key.accept strictness key location with
  | .indexOn => child.compileIndex location
  | .permission => do
      acceptPermission strictness key location (← child.compile strictness location)
  | _ => child.compile strictness location

theorem compileEntry_eq (strictness : Strictness) (key : String) (location : Location)
    (child : Outline) :
    child.compileEntry strictness key location =
      match Key.offence? strictness key location with
      | some failure => .fail failure
      | none =>
          if key = Key.indexOn then child.compileIndex location
          else if key ∈ Key.permissions then
            child.compile strictness location >>= acceptPermission strictness key location
          else child.compile strictness location := by
  rw [compileEntry, Key.accept_eq]
  cases Key.offence? strictness key location with
  | some failure => rfl
  | none =>
      rw [pure_bind]
      exact Key.dispatch_eq key _ _ _

theorem compileEntries_cons (strictness : Strictness) (location : Location) (key : String)
    (child : Outline) (rest : List (String × Outline)) :
    compileEntries strictness location ((key, child) :: rest) = (do
      let value ← child.compileEntry strictness key (location.child key)
      return (key, value) :: (← compileEntries strictness location rest)) := by
  -- The rest of the entries follows inside every alternative, so the binds are
  -- reassociated before the classes are told apart.
  rw [compileEntries, compileEntry, bind_assoc]
  congr 1
  funext kind
  cases kind <;> simp only [bind_assoc]

theorem compileIndex_result (location : Location) (node : Outline) :
    (node.compileIndex location).result =
      verdict (node.resolved.indexOffences location) node.resolved.document := by
  induction node using compileIndex.induct with
  | case1 form items => rfl
  | case2 messages produced ih =>
      simp only [compileIndex, Run.bind_result, Run.count_result, Run.report_result, resolved,
        ← ih]
      rfl
  | case3 form entries => rfl
  | case4 json => rfl
  | case5 element => rfl

theorem isPermission_document (child : Resolved) :
    (child.document.isBoolean || child.document.isString) = child.isPermission := by
  cases child <;> rfl

theorem acceptPermission_result (strictness : Strictness) {key : String} (location : Location)
    (permission : key ∈ Key.permissions) (child : Resolved) :
    (acceptPermission strictness key location child.document).result =
      verdict (child.permissionOffences strictness key location) child.document := by
  rw [acceptPermission, isPermission_document, Resolved.permissionOffences]
  cases enabled : strictness.permissions <;> cases child.isPermission <;>
    simp [permission, verdict, Run.done, Run.fail]

theorem compileEntry_result (strictness : Strictness) (key : String) (location : Location)
    (child : Outline)
    (compiled : (child.compile strictness location).result =
      verdict (child.resolved.offences strictness location) child.resolved.document) :
    (child.compileEntry strictness key location).result =
      verdict (child.resolved.offencesUnder strictness key location) child.resolved.document := by
  rw [compileEntry_eq, Resolved.offencesUnder]
  cases Key.offence? strictness key location with
  | some failure => rfl
  | none =>
      by_cases index : key = Key.indexOn
      · simpa only [if_pos index] using compileIndex_result location child
      · by_cases permission : key ∈ Key.permissions
        · simp only [if_neg index, if_pos permission, Run.bind_result, compiled]
          exact verdict_bind (acceptPermission_result strictness location permission child.resolved)
        · have unasked : child.resolved.permissionOffences strictness key location = [] := by
            simp [Resolved.permissionOffences, permission]
          simpa only [if_neg index, if_neg permission, unasked, List.append_nil] using compiled

mutual

theorem compile_result (strictness : Strictness) (location : Location) (node : Outline) :
    (node.compile strictness location).result =
      verdict (node.resolved.offences strictness location) node.resolved.document := by
  cases node with
  | map form entries =>
      simp only [compile, Run.bind_result, Run.report_result, Run.count_result, Run.pure_result,
        compileEntries_result strictness location entries]
      exact verdict_map _ _ _
  | list form items => rfl
  | scalar json => rfl
  | expression element => rfl
  | deferred messages produced =>
      simp only [compile, Run.bind_result, Run.report_result, Run.count_result,
        compile_result strictness location produced]
      rfl

theorem compileEntries_result (strictness : Strictness) (location : Location)
    (entries : List (String × Outline)) :
    (compileEntries strictness location entries).result =
      verdict (Resolved.entryOffences strictness location (resolvedEntries entries))
        (Resolved.documentEntries (resolvedEntries entries)) := by
  cases entries with
  | nil => rfl
  | cons entry rest =>
      obtain ⟨key, child⟩ := entry
      have first := compileEntry_result strictness key (location.child key) child
        (compile_result strictness (location.child key) child)
      simp only [compileEntries_cons, Run.bind_result, Run.pure_result, first, resolvedEntries,
        compileEntries_result strictness location rest, Resolved.entryOffences_cons]
      exact verdict_bind (verdict_map _ _ _)

end

theorem compileRoot_result (strictness : Strictness) (root : Outline) :
    (root.compileRoot strictness).result =
      match root.resolved.rules? with
      | some rules => verdict (rules.offences strictness .top) rules.document
      | none => .error .missingRules := by
  induction root using compileRoot.induct with
  | case1 messages produced ih =>
      simp only [compileRoot, Run.bind_result, Run.count_result, Run.report_result, resolved,
        ← ih]
      rfl
  | case2 form entries rules found =>
      simp only [compileRoot, found, resolved, Resolved.rules?, find?_resolvedEntries,
        Option.map_some, compile_result]
  | case3 form entries absent =>
      simp only [compileRoot, absent, resolved, Resolved.rules?, find?_resolvedEntries,
        Option.map_none, Run.fail_result]
  | case4 form items => rfl
  | case5 json => rfl
  | case6 element => rfl

end Outline

namespace RuleNode

theorem compile_result (strictness : Strictness) (tree : RuleNode) :
    (tree.compile strictness).result =
      match tree.resolved.rules? with
      | some rules =>
          verdict (rules.offences strictness .top) (.object [(Location.topKey, rules.document)])
      | none => .error .missingRules := by
  rw [compile_eq_outline, Run.summarized_result, Outline.compileRoot_result, resolved_outline]
  cases tree.resolved.rules? with
  | none => rfl
  | some rules => exact verdict_map _ _ _

theorem compile_eq_ok_iff (strictness : Strictness) (tree : RuleNode) (document : Json) :
    (tree.compile strictness).result = .ok document ↔
      ∃ rules, tree.resolved.rules? = some rules ∧ rules.offences strictness .top = [] ∧
        document = .object [(Location.topKey, rules.document)] := by
  rw [compile_result]
  cases tree.resolved.rules? with
  | none => simp
  | some rules =>
      simp only [verdict_eq_ok_iff, Option.some.injEq, exists_eq_left', @eq_comm _ document]

/-- A compilation fails exactly when something is wrong with the tree, and then with
the first thing that is. Every offence but the missing rules themselves stands at a
place of the rules, and its location spells the keys that lead there. -/
theorem compile_reports_first_offence (strictness : Strictness) (tree : RuleNode) :
    (∀ failure, (tree.compile strictness).result = .error failure ↔
      (tree.offences strictness).head? = some failure) ∧
    ((∃ document, (tree.compile strictness).result = .ok document) ↔
      tree.offences strictness = []) ∧
    ∀ failure ∈ tree.offences strictness, failure = .missingRules ∨
      ∃ rules keys, tree.resolved.rules? = some rules ∧ rules.Leads keys ∧
        failure.location?.map Location.text =
          some ("/rules" ++ String.join (keys.map ("/" ++ ·))) := by
  rw [compile_result, offences]
  cases tree.resolved.rules? with
  | none => simp
  | some rules =>
      refine ⟨fun failure => verdict_eq_error_iff, ?_, ?_⟩
      · simp [verdict_eq_ok_iff]
      · intro failure found
        obtain ⟨keys, leads, located⟩ := rules.location_of_mem_offences found
        refine .inr ⟨rules, keys, rfl, leads, ?_⟩
        simp [located, Location.text_eq_join, Location.top]

def faulty : RuleNode :=
  .value (.object [(Location.topKey, .object [
    (Key.read, .array []),
    ("$1", .object [("tags", .array [])]),
    ("users", .object [(Key.indexOn, .string "name"), ("tags", .array [])])])])

theorem compile_reports_first_offence_of_five :
    faulty.offences .strict =
      [.unexpectedList ⟨[Key.read]⟩, .invalidPermission Key.read ⟨[Key.read]⟩,
       .invalidWildcard "$1" ⟨["$1"]⟩, .indexNotList ⟨["users", Key.indexOn]⟩,
       .unexpectedList ⟨["users", "tags"]⟩] ∧
    (faulty.compile .strict).result = .error (.unexpectedList ⟨[Key.read]⟩) ∧
    (CompileFailure.indexNotList ⟨["users", Key.indexOn]⟩ = .missingRules ∨
      ∃ rules keys, faulty.resolved.rules? = some rules ∧ rules.Leads keys ∧
        (CompileFailure.indexNotList ⟨["users", Key.indexOn]⟩).location?.map Location.text =
          some ("/rules" ++ String.join (keys.map ("/" ++ ·)))) := by
  have found : faulty.offences .strict =
      [.unexpectedList ⟨[Key.read]⟩, .invalidPermission Key.read ⟨[Key.read]⟩,
       .invalidWildcard "$1" ⟨["$1"]⟩, .indexNotList ⟨["users", Key.indexOn]⟩,
       .unexpectedList ⟨["users", "tags"]⟩] := by decide
  obtain ⟨first, _, located⟩ := compile_reports_first_offence .strict faulty
  exact ⟨found, (first _).mpr (by rw [found]; rfl), located _ (by simp [found])⟩

end RuleNode

end AccessRules
