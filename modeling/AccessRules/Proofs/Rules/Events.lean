import AccessRules.Proofs.Rules.Placement

namespace AccessRules

/-! What a compilation comes upon.

A walk that does not stop comes upon three kinds of events: what is reported of a node,
the making of a deferred node, and what is wrong. A compilation goes along with that
walk up to the first thing that is wrong.
-/

/-- The message that describes what was found instead of the rules or of a list. -/
def CompileFailure.description : CompileFailure → Option NodeForm → Option Message
  | .missingRules, some form => some (.rootForm form)
  | .indexNotList location, some form => some (.indexForm location form)
  | _, _ => none

inductive Event where
  | report (message : Message)
  /-- A deferred node is made, with what the making reports. It is announced in a line of
  its own, unless a list or the rules are being looked for. -/
  | making (announced : Option Location) (messages : List Message)
  /-- Something is wrong, with the form of what was found if that is described. -/
  | offence (failure : CompileFailure) (found : Option NodeForm)

namespace Event

def messages : Event → List Message
  | .report message => [message]
  | .making announced messages => (announced.map Message.producing).toList ++ messages
  | .offence _ _ => []

def report? : Event → Option Message
  | .report message => some message
  | _ => none

def making? : Event → Option (List Message)
  | .making _ messages => some messages
  | _ => none

def failure? : Event → Option CompileFailure
  | .offence failure _ => some failure
  | _ => none

def refusals (failures : List CompileFailure) : List Event := failures.map (.offence · none)

theorem reports_refusals (failures : List CompileFailure) :
    (refusals failures).filterMap report? = [] := by
  simp [refusals, report?]

theorem makings_refusals (failures : List CompileFailure) :
    (refusals failures).filterMap making? = [] := by
  simp [refusals, making?]

theorem reports_map (messages : List Message) :
    (messages.map report).filterMap report? = messages := by
  simp [report?, Function.comp_def]

theorem makings_map (messages : List Message) : (messages.map report).filterMap making? = [] := by
  simp [making?]

def logged : List Event → List Message
  | [] => []
  | .offence failure found :: _ => (failure.description found).toList
  | .report message :: rest => message :: logged rest
  | .making announced messages :: rest =>
      (announced.map Message.producing).toList ++ (messages ++ logged rest)

def firstFailure? (events : List Event) : Option CompileFailure := events.findSome? failure?

theorem firstFailure?_append (events later : List Event) :
    firstFailure? (events ++ later) = (firstFailure? events).or (firstFailure? later) :=
  List.findSome?_append

theorem logged_append_of_passed {events : List Event} (passed : firstFailure? events = none)
    (later : List Event) : logged (events ++ later) = logged events ++ logged later := by
  induction events with
  | nil => rfl
  | cons event rest ih =>
      cases event with
      | report message => rw [List.cons_append, logged, logged, ih passed, List.cons_append]
      | making announced messages =>
          rw [List.cons_append, logged, logged, ih passed, List.append_assoc, List.append_assoc]
      | offence failure found => contradiction

theorem logged_append_of_stopped {events : List Event} {failure : CompileFailure}
    (stopped : firstFailure? events = some failure) (later : List Event) :
    logged (events ++ later) = logged events := by
  induction events with
  | nil => contradiction
  | cons event rest ih =>
      cases event with
      | report message => rw [List.cons_append, logged, logged, ih stopped]
      | making announced messages => rw [List.cons_append, logged, logged, ih stopped]
      | offence failure found => rfl

theorem logged_of_passed {events : List Event} (passed : firstFailure? events = none) :
    logged events = events.flatMap messages := by
  induction events with
  | nil => rfl
  | cons event rest ih =>
      cases event with
      | report message => rw [logged, ih passed, List.flatMap_cons]; rfl
      | making announced sent =>
          rw [logged, ih passed, List.flatMap_cons, messages, List.append_assoc]
      | offence failure found => contradiction

/-- A walk that stops has a first offence, with nothing wrong before it. -/
theorem exists_of_stopped {events : List Event} {failure : CompileFailure}
    (stopped : firstFailure? events = some failure) :
    ∃ before found after, events = before ++ .offence failure found :: after ∧
      firstFailure? before = none ∧
      logged events = before.flatMap messages ++ (failure.description found).toList := by
  obtain ⟨before, event, after, same, fails, passed⟩ := List.findSome?_eq_some_iff.mp stopped
  have clean : firstFailure? before = none := List.findSome?_eq_none_iff.mpr passed
  cases event with
  | offence other found =>
      obtain rfl := Option.some.inj fails
      refine ⟨before, found, after, same, clean, ?_⟩
      rw [same, logged_append_of_passed clean, logged_of_passed clean, logged]
  | _ => contradiction

end Event

open Event (logged firstFailure? refusals)

namespace Run

variable {α β : Type}

def failure? (run : Run α) : Option CompileFailure :=
  match run.result with
  | .ok _ => none
  | .error failure => some failure

/-- The run reports what the walk does up to its first offence, and fails with it. -/
structure Follows (run : Run α) (events : List Event) : Prop where
  messages : run.messages = logged events
  failure : run.failure? = firstFailure? events

theorem follows_pure (value : α) : (pure value : Run α).Follows [] := ⟨rfl, rfl⟩

theorem follows_fail (failure : CompileFailure) (later : List Event) :
    (fail failure : Run α).Follows (.offence failure none :: later) := by
  cases failure <;> exact ⟨rfl, rfl⟩

theorem follows_report (messages : List Message) :
    (report messages).Follows (messages.map .report) := by
  induction messages with
  | nil => exact ⟨rfl, rfl⟩
  | cons message rest ih => exact ⟨congrArg (message :: ·) ih.messages, ih.failure⟩

theorem Follows.bind {run : Run α} {next : α → Run β} {events later : List Event}
    (first : run.Follows events)
    (second : ∀ value, run.result = .ok value → (next value).Follows later) :
    (run >>= next).Follows (events ++ later) := by
  obtain ⟨messages, failure⟩ := first
  cases found : run.result with
  | error reason =>
      have stopped : firstFailure? events = some reason := by
        rw [← failure, failure?, found]
      have whole : (run >>= next) = ⟨run.messages, run.tally, .error reason⟩ :=
        andThen_of_error found next
      refine ⟨?_, ?_⟩
      · rw [whole, Event.logged_append_of_stopped stopped, messages]
      · rw [whole, Event.firstFailure?_append, stopped]
        rfl
  | ok value =>
      have passed : firstFailure? events = none := by
        rw [← failure, failure?, found]
      have same : run = ⟨run.messages, run.tally, .ok value⟩ := by rw [← found]
      have whole := bind_of_ok same next
      obtain ⟨laterMessages, laterFailure⟩ := second value found
      refine ⟨?_, ?_⟩
      · rw [whole, Event.logged_append_of_passed passed, messages, laterMessages]
      · rw [whole, Event.firstFailure?_append, passed, Option.none_or, ← laterFailure]
        rfl

theorem Follows.map {run : Run α} {events : List Event} (follows : run.Follows events)
    (convert : α → β) : (run >>= fun value => pure (convert value)).Follows events := by
  have whole := follows.bind fun value _ => follows_pure (convert value)
  rwa [List.append_nil] at whole

end Run

namespace Outline

/-- What is wrong with the form of a node where it stands. Under an index key a list is
asked for, and nowhere else is one allowed. -/
def misplaced (indexed : Bool) (location : Location) : Outline → List Event
  | .deferred _ _ => []
  | .list _ _ => if indexed then [] else [.offence (.unexpectedList location) none]
  | other =>
      if indexed then [.offence (.indexNotList location) (some other.form)] else []

mutual

/-- The events of a node in order, of which `indexed` tells whether a list is asked for. -/
def walk (strictness : Strictness) (indexed : Bool) (location : Location) : Outline → List Event
  | .map form entries =>
      misplaced indexed location (.map form entries) ++
        .report (.visiting location) :: walkEntries strictness location entries
  | .expression element =>
      misplaced indexed location (.expression element) ++
        (element.warnings ++ [Message.rendered location element.text]).map .report
  | .deferred messages produced =>
      .making (if indexed then none else some location) messages ::
        produced.walk strictness indexed location
  | .list form items => misplaced indexed location (.list form items)
  | .scalar json => misplaced indexed location (.scalar json)

def walkEntries (strictness : Strictness) (location : Location) :
    List (String × Outline) → List Event
  | [] => []
  | (key, child) :: rest =>
      let here := location.child key
      refusals (Key.offence? strictness key here).toList ++
        child.walk strictness (key == Key.indexOn) here ++
        refusals (child.resolved.permissionOffences strictness key here) ++
        walkEntries strictness location rest

end

def walkRoot (strictness : Strictness) : Outline → List Event
  | .deferred messages produced => .making none messages :: produced.walkRoot strictness
  | .map _ entries =>
      match Entries.find? entries Location.topKey with
      | some rules => rules.walk strictness false .top
      | none => [.offence .missingRules none]
  | other => [.offence .missingRules (some other.form)]

variable {strictness : Strictness}

theorem compileIndex_follows (location : Location) (node : Outline) :
    (node.compileIndex location).Follows (node.walk strictness true location) := by
  induction node using compileIndex.induct with
  | case1 form items => exact ⟨rfl, rfl⟩
  | case2 messages produced ih =>
      obtain ⟨reported, failure⟩ := ih
      rw [compileIndex, Run.count_bind, Run.report_bind]
      exact ⟨congrArg (messages ++ ·) reported, failure⟩
  | case3 form entries => exact ⟨rfl, rfl⟩
  | case4 json => exact ⟨rfl, rfl⟩
  | case5 element => exact ⟨rfl, rfl⟩

theorem acceptPermission_follows {key : String} (permission : key ∈ Key.permissions)
    (location : Location) (child : Resolved) :
    (acceptPermission strictness key location child.document).Follows
      (refusals (child.permissionOffences strictness key location)) := by
  rw [acceptPermission, isPermission_document]
  by_cases refused : strictness.permissions ∧ ¬ child.isPermission
  · rw [if_pos (by simpa using refused), Resolved.permissionOffences,
      if_pos ⟨permission, refused⟩]
    exact Run.follows_fail _ []
  · rw [if_neg (by simpa using refused), Resolved.permissionOffences,
      if_neg fun asked => refused asked.2]
    exact Run.follows_pure _

theorem compileEntry_follows (key : String) (location : Location) (child : Outline)
    (compiled : (child.compile strictness location).Follows
      (child.walk strictness false location)) :
    (child.compileEntry strictness key location).Follows
      (refusals (Key.offence? strictness key location).toList ++
        (child.walk strictness (key == Key.indexOn) location ++
          refusals (child.resolved.permissionOffences strictness key location))) := by
  rw [compileEntry_eq]
  cases Key.offence? strictness key location with
  | some failure => exact Run.follows_fail failure _
  | none =>
      by_cases index : key = Key.indexOn
      · have found : (child.compileIndex location).Follows (child.walk strictness true location) :=
          compileIndex_follows location child
        simp only [index, Json.permissionOffences_indexOn]
        simpa [refusals] using found
      · have plain : (key == Key.indexOn) = false := by simpa using index
        simp only [if_neg index, plain]
        by_cases permission : key ∈ Key.permissions
        · rw [if_pos permission]
          refine compiled.bind fun value finished => ?_
          rw [compile_result] at finished
          obtain ⟨-, rfl⟩ := verdict_eq_ok_iff.mp finished
          exact acceptPermission_follows permission location child.resolved
        · have unasked : child.resolved.permissionOffences strictness key location = [] :=
            if_neg fun asked => permission asked.1
          rw [if_neg permission, unasked]
          simpa [refusals] using compiled

mutual

theorem compile_follows (location : Location) (node : Outline) :
    (node.compile strictness location).Follows (node.walk strictness false location) := by
  cases node with
  | map form entries =>
      obtain ⟨reported, failure⟩ :=
        (compileEntries_follows location entries).map fun members => Json.object members
      rw [compile, Run.report_bind, Run.count_bind]
      exact ⟨congrArg (Message.visiting location :: ·) reported, failure⟩
  | list form items => exact ⟨rfl, rfl⟩
  | scalar json => exact ⟨rfl, rfl⟩
  | expression element =>
      have reported := Run.follows_report (element.warnings ++ [.rendered location element.text])
      rw [compile, Run.report_bind, Run.count_bind]
      exact ⟨(List.append_nil _).trans reported.messages, reported.failure⟩
  | deferred messages produced =>
      obtain ⟨reported, failure⟩ := compile_follows location produced
      rw [compile, Run.report_bind, Run.count_bind, Run.report_bind]
      exact ⟨congrArg (fun later => Message.producing location :: (messages ++ later)) reported,
        failure⟩

theorem compileEntries_follows (location : Location) (entries : List (String × Outline)) :
    (compileEntries strictness location entries).Follows
      (walkEntries strictness location entries) := by
  cases entries with
  | nil => exact Run.follows_pure []
  | cons entry rest =>
      obtain ⟨key, child⟩ := entry
      have first := compileEntry_follows key (location.child key) child
        (compile_follows (location.child key) child)
      have later := compileEntries_follows location rest
      rw [compileEntries_cons, walkEntries]
      simpa only [List.append_assoc] using
        first.bind fun value _ => later.map fun values => (key, value) :: values

end

theorem compileRoot_follows (root : Outline) :
    (root.compileRoot strictness).Follows (root.walkRoot strictness) := by
  induction root using compileRoot.induct with
  | case1 messages produced ih =>
      obtain ⟨reported, failure⟩ := ih
      rw [compileRoot, Run.count_bind, Run.report_bind]
      exact ⟨congrArg (messages ++ ·) reported, failure⟩
  | case2 form entries rules found =>
      simp only [compileRoot, walkRoot, found]
      exact compile_follows .top rules
  | case3 form entries absent =>
      simp only [compileRoot, walkRoot, absent]
      exact Run.follows_fail _ []
  | case4 form items => exact ⟨rfl, rfl⟩
  | case5 json => exact ⟨rfl, rfl⟩
  | case6 element => exact ⟨rfl, rfl⟩

end Outline

end AccessRules
