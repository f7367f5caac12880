import AccessRules.Proofs.CommandLine.Documents
import AccessRules.Proofs.CommandLine.Scanning
import AccessRules.Proofs.Json.Printers

namespace AccessRules.CommandLine

/-! One flag more or less.

Two command lines that differ in one flag are scanned side by side. A relation between their
settings that holds once the flag is taken holds at the end, and the two runs compare as the
relation says.
-/

namespace Settings

def SameOutput (left right : Settings) : Prop :=
  left.input = right.input ∧ left.strict = right.strict ∧ left.compact = right.compact

def SameDocument (left right : Settings) : Prop :=
  left.input = right.input ∧ left.strict = right.strict

def Stricter (left right : Settings) : Prop :=
  left.input = right.input ∧ (left.strict = true → right.strict = true) ∧
    left.compact = right.compact

theorem sameOutput_kept : Kept SameOutput where
  input related := related.1
  set flag related := by
    obtain ⟨input, strict, compact⟩ := related
    cases flag with
    | strict => exact ⟨input, rfl, compact⟩
    | compact => exact ⟨input, strict, rfl⟩
    | report | color | noColor => exact ⟨input, strict, compact⟩
  name _ related _ := ⟨rfl, related.2⟩

theorem sameDocument_kept : Kept SameDocument where
  input related := related.1
  set flag related := by
    obtain ⟨input, strict⟩ := related
    cases flag with
    | strict => exact ⟨input, rfl⟩
    | compact | report | color | noColor => exact ⟨input, strict⟩
  name _ related _ := ⟨rfl, related.2⟩

theorem stricter_kept : Kept Stricter where
  input related := related.1
  set flag related := by
    obtain ⟨input, strict, compact⟩ := related
    cases flag with
    | strict => exact ⟨input, fun _ => rfl, compact⟩
    | compact => exact ⟨input, strict, rfl⟩
    | report | color | noColor => exact ⟨input, strict, compact⟩
  name _ related _ := ⟨rfl, related.2⟩

section Execute

variable {codec : JsonCodec} {left right : Settings}

theorem printed_of_sameOutput (same : SameOutput left right) (surroundings : Surroundings) :
    left.printed codec surroundings = right.printed codec surroundings := by
  obtain ⟨input, strict, compact⟩ := same
  simp only [printed, compiled_congr input strict, documentText_congr compact]

theorem execute_of_sameOutput (same : SameOutput left right) (surroundings : Surroundings) :
    (right.execute codec surroundings).output = (left.execute codec surroundings).output ∧
      (right.execute codec surroundings).exitCode =
        (left.execute codec surroundings).exitCode := by
  rw [execute_eq, execute_eq, printed_of_sameOutput same]
  cases right.printed codec surroundings with
  | error fault => exact ⟨rfl, rfl⟩
  | ok finished => exact ⟨rfl, rfl⟩

theorem execute_of_sameDocument (agree : codec.PrintersAgree) (same : SameDocument left right)
    (surroundings : Surroundings) :
    (right.execute codec surroundings).exitCode = (left.execute codec surroundings).exitCode ∧
      codec.SameValue (left.execute codec surroundings).output
        (right.execute codec surroundings).output := by
  rw [execute_eq, execute_eq, printed, printed, compiled_congr same.1 same.2]
  cases right.compiled codec surroundings with
  | error fault => exact ⟨rfl, rfl⟩
  | ok outcome =>
      obtain ⟨document, tally⟩ := outcome
      obtain ⟨first, second, one, other, read⟩ := documentText_sameValue agree left right document
      simp only [bind, Except.bind, one, other, Except.map, true_and]
      exact read

theorem execute_of_stricter (stricter : Stricter left right) (surroundings : Surroundings) :
    ((right.execute codec surroundings).exitCode = (left.execute codec surroundings).exitCode ∨
        (left.execute codec surroundings).exitCode = 0 ∧
          (right.execute codec surroundings).exitCode = 1) ∧
      ((right.execute codec surroundings).exitCode = 0 →
        (right.execute codec surroundings).output =
          (left.execute codec surroundings).output) := by
  obtain ⟨input, checks, compact⟩ := stricter
  rw [execute_eq codec left, execute_eq codec right, printed, printed]
  rcases compiled_restricts input checks surroundings with
    ⟨fault, other, failed, refused, same⟩ | ⟨outcome, finished, passed | ⟨failure, refused⟩⟩
  · rw [failed, refused]
    exact ⟨.inl same, fun _ => rfl⟩
  · rw [finished, passed]
    simp only [bind, Except.bind, documentText_congr compact]
    cases right.documentText codec outcome.1 with
    | error fault => exact ⟨.inl rfl, fun _ => rfl⟩
    | ok output => exact ⟨.inl rfl, fun _ => rfl⟩
  · rw [finished, refused]
    simp only [bind, Except.bind]
    refine ⟨?_, fun success => by contradiction⟩
    cases printed : left.documentText codec outcome.1 with
    | ok output => exact .inr ⟨rfl, rfl⟩
    | error fault => exact .inl (exitCode_of_documentText printed).symm

end Execute

end Settings

namespace Request

variable {relation : Settings → Settings → Prop}

theorem alike_outcome (ending : Ending) : Alike relation ending.outcome ending.outcome := by
  cases ending with
  | fault reason => exact .fault reason
  | help => exact .help
  | version => exact .version

theorem alike_inserted (kept : Settings.Kept relation) {text : String} {flag : Flag}
    (named : Argument.ofText text = .flag flag)
    (taken : ∀ settings, relation settings (flag.set settings)) (settings : Settings)
    (parts : List Part) (rest : List String) :
    Alike relation (scan settings (parts.flatMap Part.words ++ rest))
      (scan settings (parts.flatMap Part.words ++ text :: rest)) := by
  rw [scan_parts, scan_parts]
  cases parts.foldlM Part.pass settings with
  | error ending => exact alike_outcome ending
  | ok reached =>
      have whole : Argument.ofText text ≠ .inputFollows := by simp [named]
      simp only [resume]
      rw [scan_lone whole, named]
      exact scan_alike kept rest (taken reached)

section Outcomes

variable (codec : JsonCodec) (surroundings : Surroundings)

def outcomeOf : Except ArgumentFault Request → Outcome
  | .error fault => (SessionFault.arguments fault).outcome
  | .ok request => request.execute codec surroundings

theorem run_eq (arguments : List String) :
    runWith codec surroundings arguments =
      outcomeOf codec surroundings (scan (.initial surroundings.terminal) arguments) := by
  rw [runWith, ofArguments]
  cases scan (.initial surroundings.terminal) arguments <;> rfl

variable {codec surroundings}

/-- Alike scans come to outcomes that compare as their runs do, or to one outcome. -/
theorem compare_of_alike {first second : Except ArgumentFault Request}
    (alike : Alike relation first second) (compare : Outcome → Outcome → Prop)
    (same : ∀ outcome, compare outcome outcome)
    (runs : ∀ {left right}, relation left right →
      compare (left.execute codec surroundings) (right.execute codec surroundings)) :
    compare (outcomeOf codec surroundings first) (outcomeOf codec surroundings second) := by
  cases alike with
  | fault | help | version => exact same _
  | run related => exact runs related

/-- Where no run is asked for, alike scans come to one outcome. -/
theorem outcome_of_no_run {first second : Except ArgumentFault Request}
    (alike : Alike relation first second) (none : ¬ ∃ settings, first = .ok (.run settings)) :
    outcomeOf codec surroundings second = outcomeOf codec surroundings first := by
  cases alike with
  | fault | help | version => rfl
  | run related => exact absurd ⟨_, rfl⟩ none

theorem outcome_failed (codec : JsonCodec) (surroundings : Surroundings)
    (arguments : List String) :
    (runWith codec surroundings arguments).exitCode = 0 ∨
      ((runWith codec surroundings arguments).exitCode = 1 ∨
        (runWith codec surroundings arguments).exitCode = 2) ∧
      (runWith codec surroundings arguments).output = "" := by
  have fault (fault : SessionFault) : fault.exitCode = 1 ∨ fault.exitCode = 2 := by
    cases fault <;> simp [SessionFault.exitCode]
  rw [run_eq]
  cases scan (.initial surroundings.terminal) arguments with
  | error reason => exact .inr ⟨fault (.arguments reason), rfl⟩
  | ok request =>
      cases request with
      | help | version => exact .inl rfl
      | run settings =>
          simp only [outcomeOf, execute]
          rw [Settings.execute_eq]
          cases settings.printed codec surroundings with
          | error reason => exact .inr ⟨fault _, rfl⟩
          | ok finished => exact .inl rfl

end Outcomes

end Request

section Inserted

variable (codec : JsonCodec) (surroundings : Surroundings) (parts : List Part) (rest : List String)

theorem unchanged_of_inserted {text : String} {flag : Flag}
    (named : Argument.ofText text = .flag flag)
    (taken : ∀ settings, Settings.SameOutput settings (flag.set settings)) :
    let plain := runWith codec surroundings (parts.flatMap Part.words ++ rest)
    let flagged := runWith codec surroundings (parts.flatMap Part.words ++ text :: rest)
    flagged.output = plain.output ∧ flagged.exitCode = plain.exitCode := by
  intro plain flagged
  simp only [plain, flagged, Request.run_eq]
  apply Request.compare_of_alike
    (Request.alike_inserted Settings.sameOutput_kept named taken _ parts rest)
    fun left right => right.output = left.output ∧ right.exitCode = left.exitCode
  · exact fun _ => ⟨rfl, rfl⟩
  · exact fun same => Settings.execute_of_sameOutput same surroundings

theorem compact_of_inserted :
    let plain := runWith codec surroundings (parts.flatMap Part.words ++ rest)
    let compact := runWith codec surroundings (parts.flatMap Part.words ++ "--compact" :: rest)
    (codec.PrintersAgree →
      compact.exitCode = plain.exitCode ∧ codec.SameValue plain.output compact.output) ∧
    ((¬ ∃ settings, Request.ofArguments surroundings.terminal
      (parts.flatMap Part.words ++ rest) = .ok (.run settings)) → compact = plain) := by
  intro plain compact
  have named : Argument.ofText "--compact" = .flag .compact := by decide
  have alike := Request.alike_inserted Settings.sameDocument_kept named (fun _ => ⟨rfl, rfl⟩)
    (.initial surroundings.terminal) parts rest
  simp only [plain, compact, Request.run_eq]
  refine ⟨?_, Request.outcome_of_no_run alike⟩
  intro agree
  apply Request.compare_of_alike alike fun left right =>
    right.exitCode = left.exitCode ∧ codec.SameValue left.output right.output
  · exact fun _ => ⟨rfl, rfl⟩
  · exact fun same => Settings.execute_of_sameDocument agree same surroundings

theorem stricter_of_inserted :
    let plain := runWith codec surroundings (parts.flatMap Part.words ++ rest)
    let strict := runWith codec surroundings (parts.flatMap Part.words ++ "--strict" :: rest)
    (strict.exitCode = plain.exitCode ∨ plain.exitCode = 0 ∧ strict.exitCode = 1) ∧
      (strict.exitCode = 0 → strict.output = plain.output) := by
  intro plain strict
  have named : Argument.ofText "--strict" = .flag .strict := by decide
  simp only [plain, strict, Request.run_eq]
  apply Request.compare_of_alike (Request.alike_inserted Settings.stricter_kept named
      (fun _ => ⟨rfl, fun _ => rfl, rfl⟩) _ parts rest)
    fun left right =>
      (right.exitCode = left.exitCode ∨ left.exitCode = 0 ∧ right.exitCode = 1) ∧
        (right.exitCode = 0 → right.output = left.output)
  · exact fun _ => ⟨.inl rfl, fun _ => rfl⟩
  · exact fun same => Settings.execute_of_stricter same surroundings

/-- What a run is asked to print does not change what it comes to. A flag may stand between
any two parts of the command line, whatever follows there. For the choice of a printer this
holds as far as the printers agree. -/
theorem presentation_flags :
    let plain := runWith codec surroundings (parts.flatMap Part.words ++ rest)
    let flagged := fun text => runWith codec surroundings (parts.flatMap Part.words ++ text :: rest)
    let runs := ∃ settings, Request.ofArguments surroundings.terminal
      (parts.flatMap Part.words ++ rest) = .ok (.run settings)
    (∀ text ∈ ["--report", "--color", "--no-color"],
      (flagged text).output = plain.output ∧ (flagged text).exitCode = plain.exitCode) ∧
    ((codec.PrintersAgree → (flagged "--compact").exitCode = plain.exitCode ∧
        codec.SameValue plain.output (flagged "--compact").output) ∧
      (¬ runs → flagged "--compact" = plain)) ∧
    (((flagged "--strict").exitCode = plain.exitCode ∨
        plain.exitCode = 0 ∧ (flagged "--strict").exitCode = 1) ∧
      ((flagged "--strict").exitCode = 0 → (flagged "--strict").output = plain.output)) ∧
    ∀ arguments, (runWith codec surroundings arguments).exitCode = 0 ∨
      ((runWith codec surroundings arguments).exitCode = 1 ∨
          (runWith codec surroundings arguments).exitCode = 2) ∧
        (runWith codec surroundings arguments).output = "" := by
  intro plain flagged runs
  refine ⟨?_, compact_of_inserted codec surroundings parts rest,
    stricter_of_inserted codec surroundings parts rest,
    Request.outcome_failed codec surroundings⟩
  have report : Argument.ofText "--report" = .flag .report := by decide
  have color : Argument.ofText "--color" = .flag .color := by decide
  have noColor : Argument.ofText "--no-color" = .flag .noColor := by decide
  simp only [List.forall_mem_cons, List.not_mem_nil, false_implies, implies_true, and_true]
  refine ⟨unchanged_of_inserted codec _ parts rest report ?_,
    unchanged_of_inserted codec _ parts rest color ?_,
    unchanged_of_inserted codec _ parts rest noColor ?_⟩
  all_goals exact fun _ => ⟨rfl, rfl, rfl⟩

end Inserted

def onePermission : Surroundings where
  standardInput := "\x7b\"rules\":\x7b\".read\":true\x7d\x7d".toUTF8
  file _ := .error "No such file or directory (os error 2)"
  terminal := false
  elapsed := "1ms"

theorem presentation_flags_behind_report :
    let plain := runWith .standard onePermission ["--report"]
    let compact := runWith .standard onePermission ["--report", "--compact"]
    JsonCodec.standard.PrintersAgree ∧ plain.exitCode = 0 ∧
      (runWith .standard onePermission ["--report", "--strict"]).output = plain.output ∧
      compact.exitCode = 0 ∧ (Json.read plain.output).toOption.isSome = true ∧
      JsonCodec.standard.SameValue plain.output compact.output := by
  intro plain compact
  have success : plain.exitCode = 0 := by decide +kernel
  have passed : (runWith .standard onePermission ["--report", "--strict"]).exitCode = 0 := by
    decide +kernel
  have readable : (Json.read plain.output).toOption.isSome = true := by decide +kernel
  have agree : JsonCodec.standard.PrintersAgree := JsonCodec.standard_printersAgree
  obtain ⟨-, ⟨shortened, -⟩, ⟨-, strict⟩, -⟩ :=
    presentation_flags .standard onePermission [.lone "--report" (by decide)] []
  obtain ⟨code, same⟩ := shortened agree
  exact ⟨agree, success, strict passed, code.trans success, readable, same⟩

end AccessRules.CommandLine
