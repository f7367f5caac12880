import AccessRules.Proofs.CommandLine.Scanning

namespace AccessRules.CommandLine

/-! What a scan comes to, told from the arguments that occur.

An argument sets a field of its own or ends the scan, and only names look at what came
before them. So a command line goes through exactly if none of its arguments ends the scan
and there is one name at most, and then each field can be read off the whole list.
-/

namespace Argument

/-- Whether the scan ends with the argument, whatever came before it. -/
def ends : Argument → Bool
  | help | version | unknown _ | inputFollows => true
  | _ => false

def name? : Argument → Option String
  | input name => some name
  | _ => none

def color? : Argument → Option Bool
  | .flag .color => some true
  | .flag .noColor => some false
  | _ => none

theorem pass_input_eq_ok_iff {settings next : Settings} {name : String} :
    (input name).pass settings = .ok next ↔
      settings.input = none ∧ next = { settings with input := some name } := by
  rw [pass, Settings.nameInput]
  cases settings.input with
  | none =>
      constructor
      · intro passed
        cases passed
        exact ⟨rfl, rfl⟩
      · rintro ⟨-, rfl⟩
        rfl
  | some other =>
      constructor
      · intro passed
        contradiction
      · rintro ⟨free, -⟩
        contradiction

theorem pass_input_eq_error_iff {settings : Settings} {name : String} {ending : Ending} :
    (input name).pass settings = .error ending ↔
      (∃ other, settings.input = some other) ∧ ending = .fault .repeatedInput := by
  rw [pass, Settings.nameInput]
  cases settings.input with
  | none =>
      constructor
      · intro failed
        contradiction
      · rintro ⟨⟨other, taken⟩, -⟩
        contradiction
  | some other =>
      constructor
      · intro failed
        cases failed
        exact ⟨⟨other, rfl⟩, rfl⟩
      · rintro ⟨-, rfl⟩
        rfl

end Argument

/-- The argument that a part comes to, with the name that follows taken in. -/
def Part.argument : Part → Argument
  | lone text _ => Argument.ofText text
  | named _ name _ => .input name

def Plain (parts : List Part) : Prop :=
  ∀ part ∈ parts, part.argument ≠ .help ∧ part.argument ≠ .version

namespace Settings

/-- Whether a scan with these settings goes through the arguments. -/
def Admits (settings : Settings) (arguments : List Argument) : Prop :=
  (∀ argument ∈ arguments, argument.ends = false) ∧
    (settings.input.toList ++ arguments.filterMap Argument.name?).length ≤ 1

/-- The settings behind the arguments of a scan that goes through them. -/
def after (settings : Settings) (arguments : List Argument) : Settings where
  input := settings.input.or (arguments.filterMap Argument.name?).head?
  strict := settings.strict || decide (.flag .strict ∈ arguments)
  compact := settings.compact || decide (.flag .compact ∈ arguments)
  report := settings.report || decide (.flag .report ∈ arguments)
  color := (arguments.filterMap Argument.color?).getLast?.getD settings.color

theorem after_flag (settings : Settings) (chosen : Flag) (rest : List Argument) :
    settings.after (.flag chosen :: rest) = (chosen.set settings).after rest := by
  cases chosen <;>
    simp only [after, Flag.set, Argument.name?, Argument.color?, List.filterMap_cons,
      List.mem_cons, List.getLast?_cons, Option.getD_some] <;>
    simp

theorem admits_flag_iff (settings : Settings) (chosen : Flag) (rest : List Argument) :
    settings.Admits (.flag chosen :: rest) ↔ (chosen.set settings).Admits rest := by
  have same : (chosen.set settings).input = settings.input := by
    cases chosen <;> rfl
  simp [Admits, Argument.ends, Argument.name?, List.filterMap_cons, same]

/-- An argument that passes leaves to the settings behind it what the rest comes to. -/
theorem of_pass_ok {settings next : Settings} {argument : Argument}
    (passed : argument.pass settings = .ok next) (rest : List Argument) :
    (settings.Admits (argument :: rest) ↔ next.Admits rest) ∧
      settings.after (argument :: rest) = next.after rest := by
  cases argument with
  | help | version | inputFollows | unknown => contradiction
  | flag chosen =>
      cases passed
      exact ⟨settings.admits_flag_iff chosen rest, settings.after_flag chosen rest⟩
  | dash =>
      cases passed
      simp [Admits, after, Argument.ends, Argument.name?, Argument.color?, List.filterMap_cons]
  | input name =>
      obtain ⟨free, rfl⟩ := Argument.pass_input_eq_ok_iff.mp passed
      simp [Admits, after, Argument.ends, Argument.name?, Argument.color?, List.filterMap_cons, free]

theorem not_admits_of_pass_error {settings : Settings} {argument : Argument} {ending : Ending}
    (failed : argument.pass settings = .error ending) (rest : List Argument) :
    ¬ settings.Admits (argument :: rest) := by
  rintro ⟨going, names⟩
  have passes := going argument List.mem_cons_self
  cases argument with
  | help | version | inputFollows | unknown | flag | dash => contradiction
  | input name =>
      obtain ⟨⟨other, taken⟩, -⟩ := Argument.pass_input_eq_error_iff.mp failed
      simp [Argument.name?, taken] at names

end Settings

/-- A scan goes through exactly the arguments that its settings admit. -/
theorem foldlM_pass_eq_ok_iff (settings last : Settings) (arguments : List Argument) :
    arguments.foldlM Argument.pass settings = .ok last ↔
      settings.Admits arguments ∧ last = settings.after arguments := by
  induction arguments generalizing settings with
  | nil =>
      have admitted : settings.Admits [] := by
        cases taken : settings.input <;> simp [Settings.Admits, taken]
      have same : settings.after [] = settings := by simp [Settings.after]
      rw [same]
      constructor
      · intro ended
        cases ended
        exact ⟨admitted, rfl⟩
      · rintro ⟨-, rfl⟩
        rfl
  | cons argument rest ih =>
      rw [List.foldlM_cons]
      cases passed : argument.pass settings with
      | error ending =>
          have stopped := Settings.not_admits_of_pass_error passed rest
          constructor
          · intro ended
            contradiction
          · rintro ⟨admitted, -⟩
            exact absurd admitted stopped
      | ok next =>
          obtain ⟨admits, after⟩ := Settings.of_pass_ok passed rest
          rw [admits, after]
          exact ih next

theorem fault_of_pass_error {settings : Settings} {argument : Argument} {ending : Ending}
    (going : argument ≠ .help ∧ argument ≠ .version)
    (failed : argument.pass settings = .error ending) : ∃ fault, ending = .fault fault := by
  cases argument with
  | help => exact absurd rfl going.1
  | version => exact absurd rfl going.2
  | flag | dash => contradiction
  | inputFollows | unknown =>
      cases failed
      exact ⟨_, rfl⟩
  | input name =>
      obtain ⟨-, rfl⟩ := Argument.pass_input_eq_error_iff.mp failed
      exact ⟨_, rfl⟩

theorem fault_of_foldlM_pass {settings : Settings} {arguments : List Argument} {ending : Ending}
    (going : ∀ argument ∈ arguments, argument ≠ .help ∧ argument ≠ .version)
    (failed : arguments.foldlM Argument.pass settings = .error ending) :
    ∃ fault, ending = .fault fault := by
  induction arguments generalizing settings with
  | nil => contradiction
  | cons argument rest ih =>
      obtain ⟨first, others⟩ := List.forall_mem_cons.mp going
      rw [List.foldlM_cons] at failed
      cases passed : argument.pass settings with
      | error stopped =>
          rw [passed] at failed
          cases failed
          exact fault_of_pass_error first passed
      | ok next =>
          rw [passed] at failed
          exact ih others failed

namespace Request

theorem foldlM_parts (settings : Settings) (parts : List Part) :
    parts.foldlM Part.pass settings =
      (parts.map Part.argument).foldlM Argument.pass settings := by
  have same : Part.pass = fun settings part => part.argument.pass settings := by
    funext settings part
    cases part <;> rfl
  rw [List.foldlM_map, same]

/-- What is accepted splits into parts. -/
theorem exists_parts_of_run : ∀ {settings last : Settings} (arguments : List String),
    scan settings arguments = .ok (.run last) →
      ∃ parts : List Part, arguments = parts.flatMap Part.words
  | _, _, [], _ => ⟨[], rfl⟩
  | settings, last, text :: rest, ran => by
      by_cases follows : Argument.ofText text = .inputFollows
      · match rest with
        | [] =>
            rw [scan.eq_def] at ran
            simp [follows] at ran
        | name :: behind =>
            rw [scan_named follows] at ran
            obtain ⟨reached, -, scanned⟩ := reached_of_resume ran
            obtain ⟨parts, rfl⟩ := exists_parts_of_run behind scanned
            exact ⟨.named text name follows :: parts, rfl⟩
      · rw [scan_lone follows] at ran
        obtain ⟨reached, -, scanned⟩ := reached_of_resume ran
        obtain ⟨parts, rfl⟩ := exists_parts_of_run rest scanned
        exact ⟨.lone text follows :: parts, rfl⟩

theorem scan_eq_run_iff (settings last : Settings) (parts : List Part) :
    scan settings (parts.flatMap Part.words) = .ok (.run last) ↔
      settings.Admits (parts.map Part.argument) ∧
        last = settings.after (parts.map Part.argument) := by
  have whole := scan_parts parts settings []
  rw [List.append_nil, foldlM_parts] at whole
  rw [whole, ← foldlM_pass_eq_ok_iff]
  constructor
  · intro ran
    obtain ⟨reached, passed, ended⟩ := reached_of_resume ran
    cases ended
    exact passed
  · intro passed
    rw [passed]
    rfl

theorem admits_of_run {settings last : Settings} {parts : List Part} {rest : List String}
    (ran : scan settings (parts.flatMap Part.words ++ rest) = .ok (.run last)) :
    settings.Admits (parts.map Part.argument) := by
  rw [scan_parts, foldlM_parts] at ran
  obtain ⟨reached, passed, -⟩ := reached_of_resume ran
  exact ((foldlM_pass_eq_ok_iff _ _ _).mp passed).1

theorem refused_of_not_admits {settings : Settings} {parts : List Part} (plain : Plain parts)
    (refused : ¬ settings.Admits (parts.map Part.argument)) (rest : List String) :
    ∃ fault, scan settings (parts.flatMap Part.words ++ rest) = .error fault := by
  rw [scan_parts, foldlM_parts]
  cases passed : (parts.map Part.argument).foldlM Argument.pass settings with
  | ok reached => exact absurd ((foldlM_pass_eq_ok_iff _ _ _).mp passed).1 refused
  | error ending =>
      obtain ⟨fault, rfl⟩ := fault_of_foldlM_pass (List.forall_mem_map.mpr plain) passed
      exact ⟨fault, rfl⟩

end Request

end AccessRules.CommandLine
