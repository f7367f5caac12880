import AccessRules.Proofs.Rules.Counts

namespace AccessRules

/-! The run of a compilation that goes through.

Without an offence the compiler walks the whole of its view of the tree, so what the run
reports, counts and returns can be read off the tree at once. The messages are a line for
each map and each deferred node, what the making of a deferred node reports, and the
warnings and the text of each expression. Under an index key and at the root deferred
nodes have no line of their own.
-/

variable {strictness : Strictness} {location : Location}

namespace Outline

def indexTranscript : Outline → List Message
  | .deferred messages produced => messages ++ produced.indexTranscript
  | _ => []

mutual

def transcript (location : Location) : Outline → List Message
  | .map _ entries => .visiting location :: entryTranscript location entries
  | .list _ _ => []
  | .scalar _ => []
  | .expression element => element.warnings ++ [.rendered location element.text]
  | .deferred messages produced =>
      .producing location :: (messages ++ produced.transcript location)

def entryTranscript (location : Location) : List (String × Outline) → List Message
  | [] => []
  | (key, child) :: rest =>
      (if key = Key.indexOn then child.indexTranscript
        else child.transcript (location.child key)) ++ entryTranscript location rest

end

def rootTranscript : Outline → List Message
  | .map _ entries =>
      match Entries.find? entries Location.topKey with
      | some rules => rules.transcript .top
      | none => []
  | .deferred messages produced => messages ++ produced.rootTranscript
  | _ => []

def completed (location : Location) (node : Outline) : Run Json where
  messages := node.transcript location
  tally := (node.resolved.tally location.depth).withDeferred node.deferrals
  result := .ok node.resolved.document

def completedEntries (location : Location) (entries : List (String × Outline)) :
    Run (List (String × Json)) where
  messages := entryTranscript location entries
  tally := (Resolved.entryTally (location.depth + 1) (resolvedEntries entries)).withDeferred
    (entryDeferrals entries)
  result := .ok (Resolved.documentEntries (resolvedEntries entries))

/-- The run over the node under a key, where a list is not walked. -/
def completedUnder (key : String) (location : Location) (node : Outline) : Run Json :=
  { node.completed location with
    messages := if key = Key.indexOn then node.indexTranscript else node.transcript location }

theorem compileIndex_eq (location : Location) (node : Outline)
    (list : node.resolved.isList = true) :
    node.compileIndex location =
      ⟨node.indexTranscript, (node.resolved.tally location.depth).withDeferred node.deferrals,
        .ok node.resolved.document⟩ := by
  induction node using compileIndex.induct with
  | case1 form items => rfl
  | case2 messages produced ih =>
      simp only [compileIndex, Run.count_bind, Run.report_bind, ih list,
        Tally.deferral_combine_withDeferred]
      rfl
  | case3 form entries => contradiction
  | case4 json => contradiction
  | case5 element => contradiction

theorem acceptPermission_of_clean {key : String} (permission : key ∈ Key.permissions)
    (child : Resolved) (clean : child.permissionOffences strictness key location = []) :
    acceptPermission strictness key location child.document = pure child.document := by
  unfold Resolved.permissionOffences at clean
  split at clean
  next refused => contradiction
  next granted =>
    have passed : (strictness.permissions && !child.isPermission) = false := by
      simpa [permission] using granted
    rw [acceptPermission, isPermission_document, passed]
    rfl

theorem compileEntry_eq_completed (key : String) (child : Outline)
    (clean : child.resolved.offencesUnder strictness key location = [])
    (compiled : child.resolved.offences strictness location = [] →
      child.compile strictness location = child.completed location) :
    child.compileEntry strictness key location = child.completedUnder key location := by
  obtain ⟨allowed, below⟩ := (Resolved.offencesUnder_eq_nil_iff _ _ _ _).mp clean
  simp only [compileEntry_eq, allowed, completedUnder]
  by_cases index : key = Key.indexOn
  · rw [if_pos index] at below ⊢
    rw [if_pos index]
    exact compileIndex_eq location child below
  · rw [if_neg index] at below ⊢
    rw [if_neg index]
    obtain ⟨childClean, unasked⟩ := below
    by_cases permission : key ∈ Key.permissions
    · have accepted := acceptPermission_of_clean permission child.resolved unasked
      rw [if_pos permission, Run.bind_of_ok (compiled childClean), accepted]
      simp only [Run.pure_eq_done, Run.done, List.append_nil, Tally.combine_zero]
      rfl
    · rw [if_neg permission]
      exact compiled childClean

mutual

theorem compile_eq_completed (location : Location) (node : Outline)
    (clean : node.resolved.offences strictness location = []) :
    node.compile strictness location = node.completed location := by
  cases node with
  | map form entries =>
      have inside := compileEntries_eq_completed location entries clean
      rw [compile, Run.report_bind, Run.count_bind, Run.map_of_ok inside,
        Tally.visit_combine_withDeferred]
      rfl
  | list form items => contradiction
  | scalar json => rfl
  | expression element =>
      rw [compile, Run.report_bind, Run.count_bind]
      simp only [Run.pure_eq_done, Run.done, List.append_nil, Tally.combine_zero]
      rfl
  | deferred messages produced =>
      rw [compile, Run.report_bind, Run.count_bind, Run.report_bind,
        compile_eq_completed location produced clean]
      simp only [completed, Tally.deferral_combine_withDeferred]
      rfl

theorem compileEntries_eq_completed (location : Location) (entries : List (String × Outline))
    (clean : Resolved.entryOffences strictness location (resolvedEntries entries) = []) :
    compileEntries strictness location entries = completedEntries location entries := by
  cases entries with
  | nil => rfl
  | cons entry rest =>
      obtain ⟨key, child⟩ := entry
      rw [resolvedEntries, Resolved.entryOffences_cons] at clean
      obtain ⟨here, later⟩ := List.append_eq_nil_iff.mp clean
      have first := compileEntry_eq_completed key child here
        (compile_eq_completed (location.child key) child)
      have second := compileEntries_eq_completed location rest later
      rw [compileEntries_cons, Run.bind_of_ok first, Run.map_of_ok second]
      simp only [completed, Location.depth_child, Tally.combine_withDeferred]
      rfl

end

theorem compileRoot_eq_completed (root : Outline) {rules : Resolved}
    (found : root.resolved.rules? = some rules) (clean : rules.offences strictness .top = []) :
    root.compileRoot strictness =
      ⟨root.rootTranscript, (rules.tally 0).withDeferred root.rootDeferrals,
        .ok rules.document⟩ := by
  induction root using compileRoot.induct with
  | case1 messages produced ih =>
      rw [compileRoot, Run.count_bind, Run.report_bind, ih found]
      simp only [Tally.deferral_combine_withDeferred]
      rfl
  | case2 form entries node present =>
      rw [resolved, Resolved.rules?, find?_resolvedEntries, present] at found
      obtain rfl := Option.some.inj found
      have compiled := compile_eq_completed .top node clean
      simp only [compileRoot, present, compiled, rootTranscript, rootDeferrals]
      rfl
  | case3 form entries absent =>
      rw [resolved, Resolved.rules?, find?_resolvedEntries, absent] at found
      contradiction
  | case4 form items => contradiction
  | case5 json => contradiction
  | case6 element => contradiction

end Outline

namespace RuleNode

/-- The whole of a compilation without offences: its messages, its counts and its document. -/
theorem compile_eq_completed (tree : RuleNode) {rules : Resolved}
    (found : tree.resolved.rules? = some rules) (clean : rules.offences strictness .top = []) :
    let counts := (rules.tally 0).withDeferred tree.outline.rootDeferrals
    tree.compile strictness =
      ⟨tree.outline.rootTranscript ++
          [.finished counts.locations counts.expressions counts.deferred],
        counts, .ok (.object [(Location.topKey, rules.document)])⟩ := by
  have viewed : tree.outline.resolved.rules? = some rules := by rw [tree.resolved_outline, found]
  have completed := Outline.compileRoot_eq_completed tree.outline viewed clean
  simp only [compile_eq_outline, completed, Run.summarized]

theorem compile_tally (strictness : Strictness) (tree : RuleNode) {rules : Resolved}
    (found : tree.resolved.rules? = some rules) (clean : rules.offences strictness .top = []) :
    (tree.compile strictness).tally =
      (rules.tally 0).withDeferred tree.outline.rootDeferrals := by
  rw [compile_eq_completed tree found clean]

end RuleNode

namespace Run

variable {α : Type}

/-- What a caller is given of a run: its value with the counts, or its failure. -/
def counted (run : Run α) : Except CompileFailure (α × Tally) :=
  run.result.map fun value => (value, run.tally)

theorem counted_eq_ok_iff {run : Run α} {value : α} {counts : Tally} :
    run.counted = .ok (value, counts) ↔ run.result = .ok value ∧ run.tally = counts := by
  unfold counted
  cases run.result <;> simp [Except.map]

theorem counted_eq_error_iff {run : Run α} {failure : CompileFailure} :
    run.counted = .error failure ↔ run.result = .error failure := by
  unfold counted
  cases run.result <;> simp [Except.map]

end Run

/-- Two things decide about a compilation: the resolved rules, and how many deferred
nodes are made. -/
theorem RuleNode.compile_counted (strictness : Strictness) (tree : RuleNode) :
    (tree.compile strictness).counted =
      match tree.resolved.rules? with
      | some rules =>
          verdict (rules.offences strictness .top)
            (.object [(Location.topKey, rules.document)],
              (rules.tally 0).withDeferred tree.outline.rootDeferrals)
      | none => .error .missingRules := by
  have result := tree.compile_result strictness
  cases found : tree.resolved.rules? with
  | none =>
      simp only [found] at result
      exact Run.counted_eq_error_iff.mpr result
  | some rules =>
      cases wrong : rules.offences strictness .top with
      | nil =>
          simp only [found, wrong] at result ⊢
          exact Run.counted_eq_ok_iff.mpr ⟨result, tree.compile_tally strictness found wrong⟩
      | cons failure rest =>
          simp only [found, wrong] at result ⊢
          exact Run.counted_eq_error_iff.mpr result

end AccessRules
