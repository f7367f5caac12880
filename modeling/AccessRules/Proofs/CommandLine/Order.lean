import AccessRules.Proofs.CommandLine.Summary

namespace AccessRules.CommandLine

theorem Plain.of_perm {parts others : List Part} (plain : Plain parts)
    (same : others.Perm parts) : Plain others :=
  fun part member => plain part (same.mem_iff.mp member)

namespace Settings

theorem admits_of_perm {settings : Settings} {first second : List Argument}
    (same : second.Perm first) (admitted : settings.Admits first) : settings.Admits second := by
  obtain ⟨going, few⟩ := admitted
  have names := same.filterMap Argument.name?
  refine ⟨fun argument member => going argument (same.mem_iff.mp member), ?_⟩
  rwa [List.length_append, names.length_eq, ← List.length_append]

theorem names_eq_of_perm {settings : Settings} {first second : List Argument}
    (same : second.Perm first) (admitted : settings.Admits first) :
    second.filterMap Argument.name? = first.filterMap Argument.name? := by
  have names := same.filterMap Argument.name?
  have few : (first.filterMap Argument.name?).length ≤ 1 := by
    have all := admitted.2
    rw [List.length_append] at all
    omega
  match found : first.filterMap Argument.name? with
  | [] => rwa [found, List.perm_nil] at names
  | [name] => rwa [found, List.perm_singleton] at names
  | _ :: _ :: _ => simp [found] at few

theorem after_of_perm {settings : Settings} {first second : List Argument}
    (same : second.Perm first) (admitted : settings.Admits first) :
    settings.after second =
      { settings.after first with color := (settings.after second).color } := by
  have names := names_eq_of_perm same admitted
  simp only [after, names, same.mem_iff]

end Settings

/-- The input that a part names. A lone dash names none. -/
def Part.name? (part : Part) : Option String := part.argument.name?

/-- What the parts say last about color, or what holds where none says anything. -/
def lastColor (color : Bool) (parts : List Part) : Bool :=
  (parts.filterMap fun part => part.argument.color?).getLast?.getD color

theorem Part.argument_ne_inputFollows (part : Part) : part.argument ≠ .inputFollows := by
  cases part with
  | lone text whole => exact whole
  | named option name follows => simp [argument]

theorem Part.ends_eq_false_iff {part : Part}
    (going : part.argument ≠ .help ∧ part.argument ≠ .version) :
    part.argument.ends = false ↔ ∀ text, part.argument ≠ .unknown text := by
  have whole := part.argument_ne_inputFollows
  cases found : part.argument <;> simp_all [Argument.ends]

namespace Request

theorem color_after (color : Bool) (parts : List Part) :
    ((Settings.initial color).after (parts.map Part.argument)).color = lastColor color parts := by
  simp only [Settings.after, List.filterMap_map]
  rfl

theorem admits_initial_iff {parts : List Part} (color : Bool) (plain : Plain parts) :
    (Settings.initial color).Admits (parts.map Part.argument) ↔
      (∀ part ∈ parts, ∀ text, part.argument ≠ .unknown text) ∧
        (parts.filterMap Part.name?).length ≤ 1 := by
  have known : (∀ argument ∈ parts.map Part.argument, argument.ends = false) ↔
      ∀ part ∈ parts, ∀ text, part.argument ≠ .unknown text := by
    rw [List.forall_mem_map]
    exact forall₂_congr fun part member => Part.ends_eq_false_iff (plain part member)
  rw [Settings.Admits, known, List.filterMap_map]
  rfl

/-- The same parts in another order are refused too, or ask for the same but for the color.
Parts are accepted exactly if every option is known and one input is named at most. Once two
are named no run follows, whatever stands behind them. -/
theorem order_counts_for_color (color : Bool) (parts : List Part) :
    let outcome := fun parts => ofArguments color (parts.flatMap Part.words)
    (Plain parts → ∀ others : List Part, others.Perm parts →
      ((∃ fault, outcome parts = .error fault) ∧ ∃ fault, outcome others = .error fault) ∨
      ∃ settings : Settings,
        outcome parts = .ok (.run { settings with color := lastColor color parts }) ∧
        outcome others = .ok (.run { settings with color := lastColor color others })) ∧
    (Plain parts → ((∃ settings, outcome parts = .ok (.run settings)) ↔
      (∀ part ∈ parts, ∀ text, part.argument ≠ .unknown text) ∧
        (parts.filterMap Part.name?).length ≤ 1)) ∧
    (1 < (parts.filterMap Part.name?).length → ∀ rest,
      (∀ settings, ofArguments color (parts.flatMap Part.words ++ rest) ≠ .ok (.run settings)) ∧
        (Plain parts →
          ∃ fault, ofArguments color (parts.flatMap Part.words ++ rest) = .error fault)) := by
  intro outcome
  have runs (parts : List Part) (settings : Settings) :
      outcome parts = .ok (.run settings) ↔ _ := scan_eq_run_iff (.initial color) settings parts
  have stops {parts : List Part} (plain : Plain parts)
      (refused : ¬ (Settings.initial color).Admits (parts.map Part.argument)) :
      ∃ fault, outcome parts = .error fault := by
    have stopped := refused_of_not_admits plain refused []
    rw [List.append_nil] at stopped
    exact stopped
  refine ⟨?_, ?_, ?_⟩
  · intro plain others same
    have arguments := same.map Part.argument
    by_cases admitted : (Settings.initial color).Admits (parts.map Part.argument)
    · have reordered := Settings.admits_of_perm arguments admitted
      right
      refine ⟨(Settings.initial color).after (parts.map Part.argument), ?_, ?_⟩
      · rw [← color_after]
        exact (runs _ _).mpr ⟨admitted, rfl⟩
      · rw [← color_after, ← Settings.after_of_perm arguments admitted]
        exact (runs _ _).mpr ⟨reordered, rfl⟩
    · left
      refine ⟨stops plain admitted, stops (plain.of_perm same) ?_⟩
      exact fun reordered => admitted (Settings.admits_of_perm arguments.symm reordered)
  · intro plain
    rw [← admits_initial_iff color plain]
    simp only [runs, exists_and_left, exists_eq, and_true]
  · intro many rest
    have refused : ¬ (Settings.initial color).Admits (parts.map Part.argument) := by
      rintro ⟨-, few⟩
      rw [List.filterMap_map] at few
      exact absurd (Nat.lt_of_lt_of_le many few) (Nat.lt_irrefl 1)
    constructor
    · exact fun settings ran => refused (admits_of_run ran)
    · exact fun plain => refused_of_not_admits plain refused rest

/-- A file called `-h` with the color switched on and off, and the same parts the other way
round. -/
theorem order_counts_for_color_around_name :
    let on : Part := .lone "--color" (by decide)
    let off : Part := .lone "--no-color" (by decide)
    let named : Part := .named "-i" "-h" (by decide)
    let second : Part := .lone "rules.json" (by decide)
    Plain [on, named, off] ∧
      (∃ settings : Settings,
        ofArguments true ["--color", "-i", "-h", "--no-color"] =
          .ok (.run { settings with color := false }) ∧
        ofArguments true ["--no-color", "-i", "-h", "--color"] =
          .ok (.run { settings with color := true })) ∧
      Plain [named, second] ∧ 1 < ([named, second].filterMap Part.name?).length ∧
      ∃ fault, ofArguments true ["-i", "-h", "rules.json", "--help"] = .error fault := by
  intro on off named second
  have plain : Plain [on, named, off] := by
    simp only [Plain, List.forall_mem_cons]
    decide
  have both : Plain [named, second] := by
    simp only [Plain, List.forall_mem_cons]
    decide
  have two : 1 < ([named, second].filterMap Part.name?).length := by decide
  have reversed : [off, named, on].Perm [on, named, off] := List.reverse_perm [on, named, off]
  obtain ⟨orders, -, -⟩ := order_counts_for_color true [on, named, off]
  obtain ⟨-, -, refused⟩ := order_counts_for_color true [named, second]
  refine ⟨plain, ?_, both, two, (refused two ["--help"]).2 both⟩
  rcases orders plain [off, named, on] reversed with ⟨⟨fault, failed⟩, -⟩ | ⟨settings, ran, other⟩
  · have ran : ofArguments true ["--color", "-i", "-h", "--no-color"] =
        .ok (.run ⟨some "-h", false, false, false, false⟩) := rfl
    have stopped : ofArguments true ["--color", "-i", "-h", "--no-color"] = .error fault := failed
    rw [ran] at stopped
    contradiction
  · exact ⟨settings, ran, other⟩

end Request

end AccessRules.CommandLine
