import AccessRules.Accessor
import AccessRules.Proofs.Rules.Events
import AccessRules.Proofs.Rules.Nodes

namespace AccessRules

open Event (logged firstFailure?)

namespace Outline

variable {strictness : Strictness}

theorem reports_misplaced (indexed : Bool) (location : Location) (node : Outline) :
    (node.misplaced indexed location).filterMap Event.report? = [] := by
  cases node <;> cases indexed <;> rfl

mutual

/-- What a walk reports of the nodes is what there is to report of each, in order. -/
theorem reports_walk (indexed : Bool) (location : Location) (node : Outline) :
    (node.walk strictness indexed location).filterMap Event.report? =
      node.resolved.nodes.flatMap fun node => node.2.reports ⟨location.keys ++ node.1⟩ := by
  cases node with
  | map form entries =>
      rw [walk, List.filterMap_append, reports_misplaced, List.nil_append, List.filterMap_cons,
        resolved, Resolved.nodes, List.flatMap_cons, List.append_nil,
        ← reports_walkEntries location entries]
      rfl
  | list form items =>
      rw [walk, reports_misplaced]
      rfl
  | scalar json =>
      rw [walk, reports_misplaced]
      rfl
  | expression element =>
      rw [walk, List.filterMap_append, reports_misplaced, List.nil_append, Event.reports_map,
        element.warnings_eq]
      simp [resolved, Resolved.nodes, Resolved.reports]
  | deferred messages produced =>
      rw [walk, List.filterMap_cons, reports_walk indexed location produced]
      rfl

theorem reports_walkEntries (location : Location) (entries : List (String × Outline)) :
    (walkEntries strictness location entries).filterMap Event.report? =
      (Resolved.entryNodes (resolvedEntries entries)).flatMap fun node =>
        node.2.reports ⟨location.keys ++ node.1⟩ := by
  cases entries with
  | nil => rfl
  | cons entry rest =>
      obtain ⟨key, child⟩ := entry
      have here := reports_walk (key == Key.indexOn) (location.child key) child
      rw [walkEntries]
      simp only [List.filterMap_append, Event.reports_refusals, here,
        reports_walkEntries location rest, resolvedEntries, Resolved.entryNodes,
        List.flatMap_append, List.flatMap_map, List.nil_append, List.append_nil]
      simp [Location.child]

end

mutual

/-- What the making of each deferred node reports, in order. -/
def makings : Outline → List (List Message)
  | .map _ entries => entryMakings entries
  | .list _ _ => []
  | .scalar _ => []
  | .expression _ => []
  | .deferred messages produced => messages :: produced.makings

def entryMakings : List (String × Outline) → List (List Message)
  | [] => []
  | (_, child) :: rest => child.makings ++ entryMakings rest

end

/-- The same of what a compilation comes upon. -/
def rootMakings : Outline → List (List Message)
  | .map _ entries =>
      match Entries.find? entries Location.topKey with
      | some rules => rules.makings
      | none => []
  | .deferred messages produced => messages :: produced.rootMakings
  | _ => []

theorem makings_misplaced (indexed : Bool) (location : Location) (node : Outline) :
    (node.misplaced indexed location).filterMap Event.making? = [] := by
  cases node <;> cases indexed <;> rfl

mutual

theorem makings_walk (indexed : Bool) (location : Location) (node : Outline) :
    (node.walk strictness indexed location).filterMap Event.making? = node.makings := by
  cases node with
  | map form entries =>
      rw [walk, List.filterMap_append, makings_misplaced, makings,
        ← makings_walkEntries location entries]
      rfl
  | list form items => exact makings_misplaced indexed location (.list form items)
  | scalar json => exact makings_misplaced indexed location (.scalar json)
  | expression element =>
      rw [walk, List.filterMap_append, makings_misplaced, Event.makings_map]
      rfl
  | deferred messages produced =>
      rw [walk, List.filterMap_cons, makings_walk indexed location produced]
      rfl

theorem makings_walkEntries (location : Location) (entries : List (String × Outline)) :
    (walkEntries strictness location entries).filterMap Event.making? = entryMakings entries := by
  cases entries with
  | nil => rfl
  | cons entry rest =>
      obtain ⟨key, child⟩ := entry
      rw [walkEntries]
      simp only [List.filterMap_append, Event.makings_refusals, entryMakings,
        makings_walk _ (location.child key) child, makings_walkEntries location rest,
        List.nil_append, List.append_nil]

end

theorem makings_walkRoot (root : Outline) :
    (root.walkRoot strictness).filterMap Event.making? = root.rootMakings := by
  induction root using walkRoot.induct with
  | case1 messages produced ih =>
      rw [walkRoot, List.filterMap_cons, ih]
      rfl
  | case2 form entries rules found =>
      simp only [walkRoot, rootMakings, found]
      exact makings_walk false .top rules
  | case3 form entries absent =>
      simp only [walkRoot, rootMakings, absent]
      rfl
  | case4 other notDeferred notMap =>
      cases other with
      | map form entries => exact absurd rfl (notMap form entries)
      | deferred messages produced => exact absurd rfl (notDeferred messages produced)
      | _ => rfl

theorem reports_walkRoot (root : Outline) :
    (root.walkRoot strictness).filterMap Event.report? =
      root.resolved.rules?.toList.flatMap Resolved.lines := by
  induction root using walkRoot.induct with
  | case1 messages produced ih =>
      rw [walkRoot, List.filterMap_cons, ih]
      rfl
  | case2 form entries rules found =>
      have whole : (rules.walk strictness false .top).filterMap Event.report? =
          rules.resolved.lines := reports_walk false .top rules
      simp only [walkRoot, resolved, Resolved.rules?, find?_resolvedEntries, found,
        Option.map_some, Option.toList_some, List.flatMap_singleton]
      exact whole
  | case3 form entries absent =>
      simp only [walkRoot, resolved, Resolved.rules?, find?_resolvedEntries, absent]
      rfl
  | case4 other notDeferred notMap =>
      cases other with
      | map form entries => exact absurd rfl (notMap form entries)
      | deferred messages produced => exact absurd rfl (notDeferred messages produced)
      | _ => rfl

end Outline

/-- What the lines of a walk through rules tell of them and of their document. -/
structure Transcribes (lines : List Message) (rules : Resolved) (document : Json)
    (counts : Tally) : Prop where
  nodes : document.nodes = rules.nodes.map fun node => (node.1, node.2.document)
  inOrder : lines = rules.nodes.flatMap fun node => node.2.reports ⟨node.1⟩
  objects : lines.filter (·.level == .trace) =
    (document.nodes.filter fun node => node.2.isObject).map fun node => .visiting ⟨node.1⟩
  locations : (lines.filter (·.level == .trace)).length = counts.locations
  expressions : lines.filter Message.isRendered =
    rules.expressions.map fun leaf => .rendered leaf.1 leaf.2.text
  rendered : (lines.filter Message.isRendered).length = counts.expressions
  quotes : lines.filter (·.level == .warn) =
    rules.expressions.flatMap fun leaf => leaf.2.quotedLiterals.map .literalQuote

theorem Resolved.transcribes_lines {rules : Resolved} (opened : rules.Opened) (deferred : Nat) :
    Transcribes rules.lines rules rules.document ((rules.tally 0).withDeferred deferred) where
  nodes := rules.nodes_document opened
  inOrder := rfl
  objects := lines_at_trace opened
  locations := by
    rw [lines_at_trace opened, List.length_map, length_objects opened 0]
    rfl
  expressions := rules.lines_rendered
  rendered := by
    rw [rules.lines_rendered, List.length_map, rules.length_expressions 0]
    rfl
  quotes := rules.lines_at_warn

namespace RuleNode

variable {strictness : Strictness} {tree : RuleNode}

/-- What a compilation would come upon if nothing stopped it. -/
def walk (strictness : Strictness) (tree : RuleNode) : List Event :=
  tree.outline.walkRoot strictness

theorem follows_walk (tree : RuleNode) (strictness : Strictness) :
    (tree.outline.compileRoot strictness).Follows (tree.walk strictness) :=
  tree.outline.compileRoot_follows

theorem messages_of_ok {document : Json}
    (compiled : (tree.compile strictness).result = .ok document) :
    firstFailure? (tree.walk strictness) = none ∧
      (tree.compile strictness).messages =
        (tree.walk strictness).flatMap Event.messages ++
          [.finished (tree.compile strictness).tally.locations
            (tree.compile strictness).tally.expressions
            (tree.compile strictness).tally.deferred] := by
  obtain ⟨reported, failure⟩ := tree.follows_walk strictness
  rw [compile_eq_outline] at compiled ⊢
  unfold Run.summarized at compiled ⊢
  cases found : (tree.outline.compileRoot strictness).result with
  | error reason => simp [found] at compiled
  | ok rules =>
      have passed : firstFailure? (tree.walk strictness) = none := by
        rw [← failure, Run.failure?, found]
      refine ⟨passed, ?_⟩
      simp only [reported, ← Event.logged_of_passed passed]

theorem messages_of_error {failure : CompileFailure}
    (failed : (tree.compile strictness).result = .error failure) :
    firstFailure? (tree.walk strictness) = some failure ∧
      (tree.compile strictness).messages = logged (tree.walk strictness) := by
  obtain ⟨reported, stopped⟩ := tree.follows_walk strictness
  rw [compile_eq_outline] at failed ⊢
  unfold Run.summarized at failed ⊢
  cases found : (tree.outline.compileRoot strictness).result with
  | ok rules => simp [found] at failed
  | error reason =>
      simp only [found, Except.error.injEq] at failed ⊢
      subst failed
      exact ⟨by rw [← stopped, Run.failure?, found], reported⟩

/-- The log of a compilation is what its walk comes upon: in order, a line for each object
of the document, the text of each expression, and before it a warning for each of its
literals that holds a quote. What the making of the deferred nodes reports stands between
these lines, in the order of the nodes. A compilation that fails has logged the part of
the walk before the first offence, and what was found in place of the rules or of a list. -/
theorem compile_transcribes (strictness : Strictness) (tree : RuleNode) :
    (∀ document counts, (tree.compile strictness).counted = .ok (document, counts) →
      ∃ rules, tree.resolved.rules? = some rules ∧
        document = .object [(Location.topKey, rules.document)] ∧
        (tree.compile strictness).messages = (tree.walk strictness).flatMap Event.messages ++
          [.finished counts.locations counts.expressions counts.deferred] ∧
        (tree.walk strictness).filterMap Event.making? = tree.outline.rootMakings ∧
        Transcribes ((tree.walk strictness).filterMap Event.report?) rules rules.document counts) ∧
    ∀ failure, (tree.compile strictness).result = .error failure →
      ∃ before found after, tree.walk strictness = before ++ .offence failure found :: after ∧
        (∀ event ∈ before, event.failure? = none) ∧
        (tree.compile strictness).messages =
          before.flatMap Event.messages ++ (failure.description found).toList ∧
        before.filterMap Event.making? <+: tree.outline.rootMakings ∧
        before.filterMap Event.report? <+: tree.resolved.rules?.toList.flatMap Resolved.lines := by
  have makings : (tree.walk strictness).filterMap Event.making? = tree.outline.rootMakings :=
    tree.outline.makings_walkRoot
  have reports : (tree.walk strictness).filterMap Event.report? =
      tree.resolved.rules?.toList.flatMap Resolved.lines := by
    rw [← tree.resolved_outline]
    exact tree.outline.reports_walkRoot
  refine ⟨?_, ?_⟩
  · intro document counts finished
    obtain ⟨compiled, rfl⟩ := Run.counted_eq_ok_iff.mp finished
    obtain ⟨rules, found, clean, same⟩ := (compile_eq_ok_iff _ _ _).mp compiled
    have opened : rules.Opened := Resolved.opened_of_rules? tree.opened_resolved found
    have sums := tree.compile_tally strictness found clean
    refine ⟨rules, found, same, (messages_of_ok compiled).2, makings, ?_⟩
    rw [reports, found, Option.toList_some, List.flatMap_singleton, sums]
    exact Resolved.transcribes_lines opened _
  · intro failure failed
    obtain ⟨stopped, logged⟩ := messages_of_error failed
    obtain ⟨before, found, after, split, passed, told⟩ := Event.exists_of_stopped stopped
    have first : before <+: tree.walk strictness := ⟨_, split.symm⟩
    refine ⟨before, found, after, split, List.findSome?_eq_none_iff.mp passed,
      logged.trans told, ?_, ?_⟩
    · rw [← makings]
      exact first.filterMap _
    · rw [← reports]
      exact first.filterMap _

/-- The last step of a test whose argument is no pattern. Taking the step is reported. -/
def looseMatch : Accessor (.value .string) (.value .boolean) := .matchPattern "bad"

def looseTest : Element :=
  .chain (((Builder.start.step (.snapshot .data)).step (.read .string)).step looseMatch).chain

/-- A test that is made when the tree is compiled, a literal with a quote in it, and what
stands as the index of the users. -/
def indexed (index : Json) : RuleNode :=
  .map [(Location.topKey, .map [
    (Key.read, .deferred looseMatch.warnings (.expression looseTest)),
    (Key.write, .expression (.literal (.string "it's"))),
    ("users", .map [(Key.indexOn, .value index)])])]

def indexedRules (index : Json) : Resolved :=
  .map [
    (Key.read, .expression looseTest),
    (Key.write, .expression (.literal (.string "it's"))),
    ("users", .map [(Key.indexOn, index.resolved)])]

theorem rules?_indexed (index : Json) :
    (indexed index).resolved.rules? = some (indexedRules index) := rfl

def nameIndex : Json := .array [.string "name"]

theorem compile_indexed :
    (indexed nameIndex).compile .strict =
      ⟨[.visiting .top, .producing ⟨[Key.read]⟩, .notPattern "bad",
        .rendered ⟨[Key.read]⟩ "data.val().matches(bad)",
        .literalQuote "it's", .rendered ⟨[Key.write]⟩ "'it's'", .visiting ⟨["users"]⟩,
        .finished 2 2 1],
      ⟨2, 2, 1, 1, 0, 1⟩,
      .ok (.object [(Location.topKey, (indexedRules nameIndex).document)])⟩ := by
  rw [compile_eq_outline]
  rfl

theorem compile_transcribes_indexed :
    Transcribes
        [.visiting .top, .rendered ⟨[Key.read]⟩ "data.val().matches(bad)", .literalQuote "it's",
          .rendered ⟨[Key.write]⟩ "'it's'", .visiting ⟨["users"]⟩]
        (indexedRules nameIndex) (indexedRules nameIndex).document ⟨2, 2, 1, 1, 0, 1⟩ ∧
    ∃ (before : List Event) (found : Option NodeForm),
      ((indexed (.string "name")).compile .strict).result =
        .error (.indexNotList ⟨["users", Key.indexOn]⟩) ∧
      ((indexed (.string "name")).compile .strict).messages =
        before.flatMap Event.messages ++
          ((CompileFailure.indexNotList ⟨["users", Key.indexOn]⟩).description found).toList ∧
      before.filterMap Event.report? <+:
        (indexed (.string "name")).resolved.rules?.toList.flatMap Resolved.lines := by
  have listed : ((indexed nameIndex).compile .strict).counted =
      .ok (.object [(Location.topKey, (indexedRules nameIndex).document)], ⟨2, 2, 1, 1, 0, 1⟩) := by
    rw [compile_indexed]
    rfl
  have failed : ((indexed (.string "name")).compile .strict).result =
      .error (.indexNotList ⟨["users", Key.indexOn]⟩) := by
    rw [compile_eq_outline]
    rfl
  refine ⟨?_, ?_⟩
  · obtain ⟨rules, found, _, _, _, transcribed⟩ := (compile_transcribes _ _).1 _ _ listed
    rw [rules?_indexed] at found
    obtain rfl := Option.some.inj found
    have lines : ((indexedRules nameIndex).nodes.flatMap fun node => node.2.reports ⟨node.1⟩) =
        [.visiting .top, .rendered ⟨[Key.read]⟩ "data.val().matches(bad)", .literalQuote "it's",
          .rendered ⟨[Key.write]⟩ "'it's'", .visiting ⟨["users"]⟩] := rfl
    rw [← lines, ← transcribed.inOrder]
    exact transcribed
  · obtain ⟨before, found, _, _, _, messages, _, reported⟩ := (compile_transcribes _ _).2 _ failed
    exact ⟨before, found, failed, messages, reported⟩

/-- The making of a deferred node may warn of what is no literal of an expression. -/
theorem making_warns_beyond_literals :
    ¬ ∀ strictness tree document rules, (compile strictness tree).result = .ok document →
      tree.resolved.rules? = some rules →
      (tree.compile strictness).messages.filter (·.level == .warn) =
        rules.expressions.flatMap fun leaf => leaf.2.quotedLiterals.map .literalQuote := by
  intro literals
  have compiled := congrArg Run.result compile_indexed
  have claimed := literals .strict (indexed nameIndex) _ _ compiled (rules?_indexed nameIndex)
  have quoted : ((indexedRules nameIndex).expressions.flatMap fun leaf =>
      leaf.2.quotedLiterals.map Message.literalQuote) = [.literalQuote "it's"] := rfl
  rw [compile_indexed, quoted] at claimed
  contradiction

end RuleNode

end AccessRules
