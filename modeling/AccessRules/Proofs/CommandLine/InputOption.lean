import AccessRules.Proofs.CommandLine.Scanning

namespace AccessRules.CommandLine

def unmarked (name : String) : String := String.ofList (dropInputMarks name.toList)

theorem toList_marked (name : String) :
    (inputMark ++ name).toList =
      '-' :: '-' :: 'i' :: 'n' :: 'p' :: 'u' :: 't' :: '=' :: name.toList := by
  rw [String.toList_append]
  rfl

theorem marked_ne {other : String} (name : String)
    (differs : ¬ inputMark.toList <+: other.toList) : inputMark ++ name ≠ other := by
  rintro rfl
  exact differs (by simp)

theorem ofText_marked (name : String) :
    Argument.ofText (inputMark ++ name) = .input (unmarked name) := by
  have starts : inputMark.toList.isPrefixOf (inputMark ++ name).toList = true := by
    simp
  have dropped : dropInputMarks (inputMark ++ name).toList = dropInputMarks name.toList := by
    rw [toList_marked, dropInputMarks]
  rw [Argument.ofText, starts, dropped]
  simp (disch := decide) only [marked_ne, or_self, if_false, if_true, unmarked]

theorem ofText_eq_inputFollows {option : String} (spelled : option = "--input" ∨ option = "-i") :
    Argument.ofText option = .inputFollows := by
  rcases spelled with rfl | rfl <;> decide

theorem length_dropInputMarks_le (text : List Char) :
    (dropInputMarks text).length ≤ text.length := by
  fun_induction dropInputMarks text with
  | case1 rest induction =>
      simp only [List.length_cons]
      omega
  | case2 => exact Nat.le_refl _

theorem dropInputMarks_eq_self {text : List Char} (bare : ¬ inputMark.toList <+: text) :
    dropInputMarks text = text := by
  fun_cases dropInputMarks text with
  | case1 rest => exact absurd ⟨rest, rfl⟩ bare
  | case2 => rfl

theorem unmarked_eq_iff (name : String) :
    unmarked name = name ↔ ¬ inputMark.toList <+: name.toList := by
  rw [unmarked, ← String.toList_inj, String.toList_ofList]
  constructor
  · rintro whole ⟨rest, starts⟩
    have shorter : dropInputMarks name.toList = dropInputMarks rest := by
      rw [← starts]
      rfl
    have least := length_dropInputMarks_le rest
    have size : name.toList.length = 8 + rest.length := by
      rw [← starts, List.length_append]
      rfl
    rw [← shorter, whole] at least
    omega
  · exact dropInputMarks_eq_self

example : unmarked "--input=--input=rules.json" = "rules.json" := by decide

namespace Request

theorem scan_marked {option : String} (follows : Argument.ofText option = .inputFollows)
    (settings : Settings) (name : String) (rest : List String) :
    scan settings ((inputMark ++ name) :: rest) =
      scan settings (option :: unmarked name :: rest) := by
  rw [scan_lone (by simp [ofText_marked]), scan_named follows, ofText_marked]
  rfl

/-- A name that is taken stays, since a second one is refused. -/
theorem input_of_scan {settings last : Settings} {arguments : List String} {name : String}
    (scanned : scan settings arguments = .ok (.run last)) (named : settings.input = some name) :
    last.input = some name := by
  have kept : Settings.Kept fun left right => left = right ∧ left.input = some name := {
    input := fun ⟨same, _⟩ => congrArg Settings.input same
    set := fun flag ⟨same, taken⟩ => ⟨congrArg flag.set same, by cases flag <;> exact taken⟩
    name := fun _ ⟨_, taken⟩ free => by simp [taken] at free }
  have alike := scan_alike kept arguments ⟨rfl, named⟩
  rw [scanned] at alike
  cases alike with
  | run related => exact related.2

/-- A scan that is resumed at the option ends with its name, if it ends with a run. -/
theorem input_of_scan_named {settings last : Settings} {option name : String}
    {rest : List String} (follows : Argument.ofText option = .inputFollows)
    (scanned : scan settings (option :: name :: rest) = .ok (.run last)) :
    last.input = some name := by
  rw [scan_named follows] at scanned
  unfold Settings.nameInput at scanned
  cases taken : settings.input with
  | some _ =>
      rw [taken] at scanned
      contradiction
  | none =>
      rw [taken] at scanned
      exact input_of_scan scanned rfl

/-- The spelling with an equals sign does what the other one does for the name without its
leading marks. The same name is meant exactly if there are none, as far as the arguments
are accepted at all. -/
theorem input_spellings (color : Bool) (parts : List Part) (option name : String)
    (rest : List String) (spelled : option = "--input" ∨ option = "-i") :
    let marked := ofArguments color (parts.flatMap Part.words ++ (inputMark ++ name) :: rest)
    let named := fun value =>
      ofArguments color (parts.flatMap Part.words ++ option :: value :: rest)
    marked = named (unmarked name) ∧
      (¬ inputMark.toList <+: name.toList → marked = named name) ∧
      ∀ settings, marked = .ok (.run settings) →
        settings.input = some (unmarked name) ∧
          (marked = named name ↔ ¬ inputMark.toList <+: name.toList) := by
  intro marked named
  have follows := ofText_eq_inputFollows spelled
  have same : marked = named (unmarked name) :=
    scan_congr_of_resumed parts _ fun reached => scan_marked follows reached name rest
  have whole (bare : ¬ inputMark.toList <+: name.toList) : marked = named name := by
    rw [same, (unmarked_eq_iff name).mpr bare]
  have input {value : String} {settings : Settings} (ran : named value = .ok (.run settings)) :
      settings.input = some value := by
    obtain ⟨reached, scanned⟩ := resumed_of_run ran
    exact input_of_scan_named follows scanned
  refine ⟨same, whole, fun settings ran => ⟨input (same ▸ ran), fun equal => ?_, whole⟩⟩
  have left := input (same ▸ ran)
  have right := input (equal ▸ ran)
  exact (unmarked_eq_iff name).mp (Option.some.inj (left.symm.trans right))

theorem input_spellings_behind_strict :
    ("-i" = "--input" ∨ "-i" = "-i") ∧
      ofArguments false ["--strict", "--input=--input=rules.json", "--compact"] =
        ofArguments false ["--strict", "-i", "rules.json", "--compact"] := by
  have spelled : "-i" = "--input" ∨ "-i" = "-i" := .inr rfl
  have bare : unmarked "--input=rules.json" = "rules.json" := by decide
  have same := (input_spellings false [.lone "--strict" (by decide)] "-i" "--input=rules.json"
    ["--compact"] spelled).1
  rw [bare] at same
  exact ⟨spelled, same⟩

/-- A file whose name starts with the mark is not found by the spelling with an equals sign. -/
theorem input_spellings_differ :
    ofArguments false ["--input=--input=x"] ≠ ofArguments false ["--input", "--input=x"] := by
  intro same
  have ran : scan (.initial false) ["--input", "--input=x"] =
      .ok (.run ⟨some "x", false, false, false, false⟩) := same.symm.trans rfl
  have whole := input_of_scan_named (by decide) ran
  contradiction

end Request

end AccessRules.CommandLine
