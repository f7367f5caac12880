import AccessRules.Proofs.CommandLine.Presentation
import AccessRules.Proofs.CommandLine.Summary

namespace AccessRules.CommandLine

/-- What a run prints as its document and what it tells its caller. -/
def Outcome.Agree (left right : Outcome) : Prop :=
  left.output = right.output ∧ left.exitCode = right.exitCode

namespace Settings

variable {codec : JsonCodec} {settings : Settings}

theorem execute_of_unnamed (unnamed : settings.input = none) (surroundings : Surroundings)
    (file : String → Except String ByteArray) :
    settings.execute codec { surroundings with file } = settings.execute codec surroundings := by
  have same : settings.readInput { surroundings with file } = settings.readInput surroundings := by
    rw [readInput, readInput, unnamed]
  rw [execute, execute, same]

theorem execute_of_named {name : String} (named : settings.input = some name)
    (surroundings : Surroundings) (bytes : ByteArray) :
    settings.execute codec { surroundings with standardInput := bytes } =
      settings.execute codec surroundings := by
  have same : settings.readInput { surroundings with standardInput := bytes } =
      settings.readInput surroundings := by
    rw [readInput, readInput, named]
  rw [execute, execute, same]

theorem execute_of_unreadable {name reason : String} {surroundings : Surroundings}
    (named : settings.input = some name) (missing : surroundings.file name = .error reason) :
    settings.execute codec surroundings = (SessionFault.unreadable name reason).outcome := by
  have fault : settings.readInput surroundings = .error (.unreadable name reason) := by
    simp [readInput, named, missing]
  rw [execute, fault]

theorem agree_of_printed {left right : Settings} {here there : Surroundings}
    (same : left.printed codec here = right.printed codec there ∨
      ∃ fault other, left.printed codec here = .error fault ∧
        right.printed codec there = .error other ∧ fault.exitCode = other.exitCode) :
    (left.execute codec here).Agree (right.execute codec there) := by
  rw [execute_eq, execute_eq]
  rcases same with equal | ⟨fault, other, failed, refused, code⟩
  · rw [equal]
    cases right.printed codec there with
    | error fault => exact ⟨rfl, rfl⟩
    | ok finished => exact ⟨rfl, rfl⟩
  · rw [failed, refused]
    exact ⟨rfl, code⟩

/-- The bytes of a file come to what they would come to on standard input. -/
theorem agree_of_readable {name : String} {bytes : ByteArray} {surroundings : Surroundings}
    (named : settings.input = some name) (found : surroundings.file name = .ok bytes) :
    (settings.execute codec surroundings).Agree
      (({ settings with input := none } : Settings).execute codec
        { surroundings with standardInput := bytes }) := by
  apply agree_of_printed
  simp only [printed, compiled, parsed, readInput, named, found]
  cases String.fromUTF8? bytes with
  | none => exact .inr ⟨_, _, rfl, rfl, rfl⟩
  | some text =>
      dsimp only
      by_cases blank : Text.isBlank text = true
      · simp only [if_pos blank]
        exact .inr ⟨_, _, rfl, rfl, rfl⟩
      · simp only [if_neg blank]
        exact .inl rfl

/-- A name that is admitted is the only one. -/
theorem after_of_admitted_name {name : String} {front back : List Argument}
    (admitted : settings.Admits (front ++ .input name :: back)) :
    settings.Admits (front ++ back) ∧
      (settings.after (front ++ .input name :: back)).input = some name ∧
      { settings.after (front ++ .input name :: back) with input := none } =
        settings.after (front ++ back) := by
  obtain ⟨going, few⟩ := admitted
  simp only [List.filterMap_append, List.filterMap_cons, Argument.name?, List.length_append,
    List.length_cons] at few
  have free : settings.input = none := by
    cases taken : settings.input with
    | none => rfl
    | some other => simp [taken] at few
  have first : front.filterMap Argument.name? = [] := List.eq_nil_of_length_eq_zero (by omega)
  have last : back.filterMap Argument.name? = [] := List.eq_nil_of_length_eq_zero (by omega)
  refine ⟨⟨fun argument member => going argument ?_, ?_⟩, ?_, ?_⟩
  · simp only [List.mem_append, List.mem_cons] at member ⊢
    tauto
  · simp [free, first, last]
  · simp [after, free, first, Argument.name?]
  · simp [after, free, first, last, Argument.color?]

end Settings

namespace Request

theorem run_of_accepted {codec : JsonCodec} {surroundings : Surroundings} {arguments : List String}
    {settings : Settings}
    (ran : ofArguments surroundings.terminal arguments = .ok (.run settings)) :
    runWith codec surroundings arguments = settings.execute codec surroundings := by
  rw [runWith, ran]
  rfl

/-- Without its name an accepted command line asks for the same of standard input. -/
theorem ofArguments_without_name {color : Bool} {parts : List Part} {part : Part} {name : String}
    {rest : List String} {settings : Settings} (names : part.argument = .input name)
    (ran : ofArguments color (parts.flatMap Part.words ++ (part.words ++ rest)) =
      .ok (.run settings)) :
    settings.input = some name ∧
      ofArguments color (parts.flatMap Part.words ++ rest) =
        .ok (.run { settings with input := none }) := by
  have split : parts.flatMap Part.words ++ (part.words ++ rest) =
      (parts ++ [part]).flatMap Part.words ++ rest := by
    simp
  rw [ofArguments, split] at ran
  obtain ⟨reached, scanned⟩ := resumed_of_run ran
  obtain ⟨behind, rfl⟩ := exists_parts_of_run rest scanned
  rw [← List.flatMap_append, scan_eq_run_iff, List.append_assoc, List.map_append,
    List.singleton_append, List.map_cons, names] at ran
  obtain ⟨admitted, rfl⟩ := ran
  obtain ⟨without, named, same⟩ := Settings.after_of_admitted_name admitted
  refine ⟨named, ?_⟩
  rw [same, ← List.flatMap_append, ← List.map_append]
  apply (scan_eq_run_iff (.initial color) _ (parts ++ behind)).mpr
  exact ⟨by rwa [List.map_append], rfl⟩

def namedDashes : List (List String) := [["-i", "-"], ["--input", "-"], ["--input=-"]]

theorem exists_part_of_named_dash {dash : List String} (spelled : dash ∈ namedDashes) :
    ∃ part : Part, part.words = dash ∧ part.argument = .input "-" := by
  simp only [namedDashes, List.mem_cons, List.not_mem_nil, or_false] at spelled
  rcases spelled with rfl | rfl | rfl
  · exact ⟨.named "-i" "-" (by decide), rfl, rfl⟩
  · exact ⟨.named "--input" "-" (by decide), rfl, rfl⟩
  · exact ⟨.lone "--input=-" (by decide), rfl, by decide⟩

theorem run_dash (codec : JsonCodec) (surroundings : Surroundings) (parts : List Part)
    (rest : List String) :
    runWith codec surroundings (parts.flatMap Part.words ++ "-" :: rest) =
      runWith codec surroundings (parts.flatMap Part.words ++ rest) := by
  have dash : Argument.ofText "-" = .dash := by decide
  rw [run_eq, run_eq]
  congr 1
  apply scan_congr_of_resumed
  intro reached
  rw [scan_lone (by simp [dash]), dash]
  rfl

theorem unreadable_agree_iff (codec : JsonCodec) (name reason : String)
    (surroundings : Surroundings) (arguments : List String) :
    (SessionFault.unreadable name reason).outcome.Agree (runWith codec surroundings arguments) ↔
      (runWith codec surroundings arguments).exitCode = 2 := by
  refine ⟨?_, ?_⟩
  · intro agree
    exact agree.2.symm
  · intro code
    rcases outcome_failed codec surroundings arguments with success | ⟨-, silent⟩
    · rw [success] at code
      contradiction
    · exact ⟨silent.symm, code.symm⟩

/-- A dash on its own leaves everything to standard input. As a name it means the file that
is called so: with the bytes of that file on standard input the command line without the name
would print the same, and where there is no such file it does so only if it fails the same
way. -/
theorem dash_input (codec : JsonCodec) (surroundings : Surroundings) (parts : List Part)
    (rest : List String) :
    let line := fun dash => parts.flatMap Part.words ++ (dash ++ rest)
    let accepted := fun dash settings =>
      ofArguments surroundings.terminal (line dash) = .ok (.run settings)
    runWith codec surroundings (line ["-"]) = runWith codec surroundings (line []) ∧
    (∀ settings, accepted ["-"] settings → settings.input = none →
      ∀ file, runWith codec { surroundings with file } (line ["-"]) =
        runWith codec surroundings (line ["-"])) ∧
    ∀ dash ∈ namedDashes, ∀ settings, accepted dash settings →
      settings.input = some "-" ∧
      (∀ bytes, runWith codec { surroundings with standardInput := bytes } (line dash) =
        runWith codec surroundings (line dash)) ∧
      (∀ bytes, surroundings.file "-" = .ok bytes →
        (runWith codec surroundings (line dash)).Agree
          (runWith codec { surroundings with standardInput := bytes } (line []))) ∧
      ∀ reason, surroundings.file "-" = .error reason →
        runWith codec surroundings (line dash) =
            (SessionFault.unreadable "-" reason).outcome ∧
          ((runWith codec surroundings (line dash)).Agree
              (runWith codec surroundings (line [])) ↔
            (runWith codec surroundings (line [])).exitCode = 2) := by
  intro line accepted
  refine ⟨run_dash codec surroundings parts rest, ?_, ?_⟩
  · intro settings ran unnamed file
    calc runWith codec { surroundings with file } (line ["-"])
        = settings.execute codec { surroundings with file } := run_of_accepted ran
      _ = settings.execute codec surroundings :=
        Settings.execute_of_unnamed unnamed surroundings file
      _ = runWith codec surroundings (line ["-"]) := (run_of_accepted ran).symm
  · intro dash spelled settings ran
    obtain ⟨part, rfl, names⟩ := exists_part_of_named_dash spelled
    obtain ⟨named, without⟩ := ofArguments_without_name names ran
    have whole (bytes : ByteArray) :
        runWith codec { surroundings with standardInput := bytes } (line part.words) =
          settings.execute codec { surroundings with standardInput := bytes } := run_of_accepted ran
    have reduced (bytes : ByteArray) :
        runWith codec { surroundings with standardInput := bytes } (line []) =
          ({ settings with input := none } : Settings).execute codec
            { surroundings with standardInput := bytes } := run_of_accepted without
    refine ⟨named, ?_, ?_, ?_⟩
    · intro bytes
      rw [whole, run_of_accepted ran]
      exact Settings.execute_of_named named surroundings bytes
    · intro bytes found
      rw [reduced, run_of_accepted ran]
      exact Settings.agree_of_readable named found
    · intro reason missing
      have failed : runWith codec surroundings (line part.words) =
          (SessionFault.unreadable "-" reason).outcome :=
        (run_of_accepted ran).trans (Settings.execute_of_unreadable named missing)
      refine ⟨failed, ?_⟩
      rw [failed]
      exact unreadable_agree_iff codec "-" reason surroundings (line [])

/-- One permission in a file that is called by a dash, and nothing on standard input. -/
def permissionInFile : Surroundings :=
  { onePermission with standardInput := .empty, file := fun _ => .ok onePermission.standardInput }

theorem dash_input_behind_report :
    let settings : Settings := ⟨some "-", true, false, true, false⟩
    let line := ["--report", "-i", "-", "--strict"]
    ofArguments false line = .ok (.run settings) ∧
      onePermission.file "-" = .error "No such file or directory (os error 2)" ∧
      runWith .standard onePermission line =
        (SessionFault.unreadable "-" "No such file or directory (os error 2)").outcome ∧
      permissionInFile.file "-" = .ok onePermission.standardInput ∧
      (runWith .standard permissionInFile line).Agree
        (runWith .standard { permissionInFile with standardInput := onePermission.standardInput }
          ["--report", "--strict"]) ∧
      ofArguments false ["--report", "-", "--strict"] = .ok (.run { settings with input := none }) ∧
      runWith .standard permissionInFile ["--report", "-", "--strict"] =
        runWith .standard { permissionInFile with file := onePermission.file }
          ["--report", "-", "--strict"] := by
  intro settings line
  let front : List Part := [.lone "--report" (by decide)]
  have named : ofArguments false line = .ok (.run settings) := rfl
  have alone : ofArguments false ["--report", "-", "--strict"] =
      .ok (.run { settings with input := none }) := rfl
  have spelled : ["-i", "-"] ∈ namedDashes := by decide
  obtain ⟨-, -, missing⟩ := dash_input .standard onePermission front ["--strict"]
  obtain ⟨-, -, -, unreadable⟩ := missing _ spelled settings named
  obtain ⟨-, unnamed, present⟩ := dash_input .standard permissionInFile front ["--strict"]
  obtain ⟨-, -, readable, -⟩ := present _ spelled settings named
  exact ⟨named, rfl, (unreadable _ rfl).1, rfl, readable _ rfl, alone,
    (unnamed _ alone rfl onePermission.file).symm⟩

/-- As the value of the option a dash leaves standard input unread. -/
theorem dash_option_leaves_standard_input :
    ofArguments false ["--input", "-"] = .ok (.run ⟨some "-", false, false, false, false⟩) ∧
      (runWith .standard onePermission ["--input", "-"]).exitCode = 2 ∧
      (runWith .standard onePermission []).exitCode = 0 := by
  refine ⟨rfl, ?_, ?_⟩
  · decide +kernel
  · decide +kernel

end Request

end AccessRules.CommandLine
