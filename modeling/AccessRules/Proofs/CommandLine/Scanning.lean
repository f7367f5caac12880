import AccessRules.CommandLine.Arguments

namespace AccessRules.CommandLine

/-! Scanning the command line part by part.

A part is an argument with all that belongs to it. Between two parts the scan knows nothing
of what came before but the settings, so it can be resumed there with other arguments.
-/

/-- How a scan ends before the arguments do. -/
inductive Ending where
  | fault (fault : ArgumentFault)
  | help
  | version

def Ending.outcome : Ending → Except ArgumentFault Request
  | .fault reason => .error reason
  | .help => .ok .help
  | .version => .ok .version

theorem Ending.outcome_ne_run (ending : Ending) (settings : Settings) :
    ending.outcome ≠ .ok (.run settings) := by
  cases ending <;> simp [outcome]

/-- What an argument comes to on its own: the end of the scan, or settings to go on with. -/
def Argument.pass (settings : Settings) : Argument → Except Ending Settings
  | .help => .error .help
  | .version => .error .version
  | .flag chosen => .ok (chosen.set settings)
  | .inputFollows => .error (.fault .missingInput)
  | .input name => (settings.nameInput name).mapError .fault
  | .dash => .ok settings
  | .unknown option => .error (.fault (.unknownOption option))

inductive Part where
  | lone (text : String) (whole : Argument.ofText text ≠ .inputFollows)
  | named (option name : String) (follows : Argument.ofText option = .inputFollows)

namespace Part

def words : Part → List String
  | lone text _ => [text]
  | named option name _ => [option, name]

def pass (settings : Settings) : Part → Except Ending Settings
  | lone text _ => (Argument.ofText text).pass settings
  | named _ name _ => (settings.nameInput name).mapError .fault

end Part

namespace Request

def resume (rest : List String) : Except Ending Settings → Except ArgumentFault Request
  | .error ending => ending.outcome
  | .ok settings => scan settings rest

theorem scan_lone {text : String} (whole : Argument.ofText text ≠ .inputFollows)
    (settings : Settings) (rest : List String) :
    scan settings (text :: rest) = resume rest ((Argument.ofText text).pass settings) := by
  rw [scan.eq_def]
  cases argument : Argument.ofText text <;> simp only [argument]
  case inputFollows => exact absurd argument whole
  case input name =>
    rw [Argument.pass]
    cases settings.nameInput name <;> rfl
  all_goals rfl

theorem scan_named {option : String} (follows : Argument.ofText option = .inputFollows)
    (settings : Settings) (name : String) (rest : List String) :
    scan settings (option :: name :: rest) =
      resume rest ((settings.nameInput name).mapError .fault) := by
  rw [scan.eq_def]
  simp only [follows]
  cases settings.nameInput name <;> rfl

theorem scan_words (part : Part) (settings : Settings) (rest : List String) :
    scan settings (part.words ++ rest) = resume rest (part.pass settings) := by
  cases part with
  | lone text whole => exact scan_lone whole settings rest
  | named option name follows => exact scan_named follows settings name rest

theorem scan_parts (parts : List Part) (settings : Settings) (rest : List String) :
    scan settings (parts.flatMap Part.words ++ rest) =
      resume rest (parts.foldlM Part.pass settings) := by
  induction parts generalizing settings with
  | nil => rfl
  | cons part parts induction =>
      rw [List.flatMap_cons, List.append_assoc, scan_words, List.foldlM_cons]
      cases passed : part.pass settings with
      | error ending => rfl
      | ok later => exact induction later

/-- Where the scan of the same parts is resumed, only the settings reached there matter. -/
theorem scan_congr_of_resumed (parts : List Part) (settings : Settings)
    {first second : List String} (same : ∀ reached, scan reached first = scan reached second) :
    scan settings (parts.flatMap Part.words ++ first) =
      scan settings (parts.flatMap Part.words ++ second) := by
  rw [scan_parts, scan_parts]
  cases parts.foldlM Part.pass settings with
  | error ending => rfl
  | ok reached => exact same reached

theorem reached_of_resume {rest : List String} {result : Except Ending Settings}
    {last : Settings} (ran : resume rest result = .ok (.run last)) :
    ∃ reached, result = .ok reached ∧ scan reached rest = .ok (.run last) := by
  cases result with
  | error ending => exact absurd ran (ending.outcome_ne_run last)
  | ok reached => exact ⟨reached, rfl, ran⟩

theorem resumed_of_run {parts : List Part} {settings last : Settings} {rest : List String}
    (scanned : scan settings (parts.flatMap Part.words ++ rest) = .ok (.run last)) :
    ∃ reached, scan reached rest = .ok (.run last) := by
  rw [scan_parts] at scanned
  obtain ⟨reached, -, resumed⟩ := reached_of_resume scanned
  exact ⟨reached, resumed⟩

end Request

/-- A relation between the settings of two scans that no argument breaks. -/
structure Settings.Kept (relation : Settings → Settings → Prop) : Prop where
  input : ∀ {left right}, relation left right → left.input = right.input
  set : ∀ {left right} (flag : Flag), relation left right → relation (flag.set left) (flag.set right)
  name : ∀ {left right} (name : String), relation left right → left.input = none →
    relation { left with input := some name } { right with input := some name }

namespace Request

/-- Two outcomes of a scan that differ in related settings at most. -/
inductive Alike (relation : Settings → Settings → Prop) :
    Except ArgumentFault Request → Except ArgumentFault Request → Prop where
  | fault (fault : ArgumentFault) : Alike relation (.error fault) (.error fault)
  | help : Alike relation (.ok .help) (.ok .help)
  | version : Alike relation (.ok .version) (.ok .version)
  | run {left right : Settings} (related : relation left right) :
      Alike relation (.ok (.run left)) (.ok (.run right))

variable {relation : Settings → Settings → Prop} {left right : Settings}

theorem alike_nameInput (kept : Settings.Kept relation) (related : relation left right)
    (name : String) {rest : List String}
    (next : ∀ {left right}, relation left right → Alike relation (scan left rest) (scan right rest)) :
    Alike relation (resume rest ((left.nameInput name).mapError .fault))
      (resume rest ((right.nameInput name).mapError .fault)) := by
  have same := kept.input related
  unfold Settings.nameInput
  rw [← same]
  cases taken : left.input with
  | some _ => exact .fault _
  | none => exact next (kept.name name related taken)

theorem alike_of_lone (kept : Settings.Kept relation) (related : relation left right)
    {text : String} (whole : Argument.ofText text ≠ .inputFollows) {rest : List String}
    (next : ∀ {left right}, relation left right → Alike relation (scan left rest) (scan right rest)) :
    Alike relation (scan left (text :: rest)) (scan right (text :: rest)) := by
  rw [scan_lone whole, scan_lone whole]
  cases argument : Argument.ofText text with
  | help => exact .help
  | version => exact .version
  | flag chosen => exact next (kept.set chosen related)
  | inputFollows => exact absurd argument whole
  | input name => exact alike_nameInput kept related name next
  | dash => exact next related
  | unknown option => exact .fault _

/-- Scanning the same arguments keeps what every single argument keeps. -/
theorem scan_alike (kept : Settings.Kept relation) :
    ∀ {left right : Settings} (arguments : List String), relation left right →
      Alike relation (scan left arguments) (scan right arguments)
  | _, _, [], related => .run related
  | left, right, text :: rest, related => by
      by_cases whole : Argument.ofText text = .inputFollows
      · match rest with
        | [] =>
            rw [scan.eq_def, scan.eq_def]
            simp only [whole]
            exact .fault _
        | name :: after =>
            rw [scan_named whole, scan_named whole]
            exact alike_nameInput kept related name fun later => scan_alike kept after later
      · exact alike_of_lone kept related whole fun later => scan_alike kept rest later

end Request

end AccessRules.CommandLine
