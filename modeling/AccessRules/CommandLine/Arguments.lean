namespace AccessRules.CommandLine

/-! The arguments of the command line.

Each argument is first told apart by its own text; only the option that names an
input takes the argument after it. Arguments are worked off from left to right, so
the first fault wins, and a request for help ends the scan where it stands.
-/

structure Settings where
  /-- The file to read. Standard input is read where none is named. -/
  input : Option String
  strict : Bool
  compact : Bool
  report : Bool
  color : Bool
deriving DecidableEq, Repr

def Settings.initial (color : Bool) : Settings := ⟨none, false, false, false, color⟩

inductive Flag where
  | strict
  | compact
  | report
  | color
  | noColor
deriving DecidableEq, Repr

def Flag.set : Flag → Settings → Settings
  | .strict, settings => { settings with strict := true }
  | .compact, settings => { settings with compact := true }
  | .report, settings => { settings with report := true }
  | .color, settings => { settings with color := true }
  | .noColor, settings => { settings with color := false }

inductive Argument where
  | help
  | version
  | flag (flag : Flag)
  /-- Names the input in the next argument. -/
  | inputFollows
  | input (name : String)
  /-- A lone dash, which changes nothing. -/
  | dash
  | unknown (text : String)
deriving DecidableEq, Repr

/-- Drops every leading repetition of the input option with its equals sign. -/
def dropInputMarks : List Char → List Char
  | '-' :: '-' :: 'i' :: 'n' :: 'p' :: 'u' :: 't' :: '=' :: rest => dropInputMarks rest
  | text => text

def inputMark : String := "--input="

def Argument.ofText (text : String) : Argument :=
  if text = "-h" ∨ text = "--help" then .help
  else if text = "-V" ∨ text = "--version" then .version
  else if text = "--color" then .flag .color
  else if text = "--no-color" then .flag .noColor
  else if text = "--strict" then .flag .strict
  else if text = "--compact" then .flag .compact
  else if text = "--report" then .flag .report
  else if text = "--input" ∨ text = "-i" then .inputFollows
  else if inputMark.toList.isPrefixOf text.toList then
    .input (String.ofList (dropInputMarks text.toList))
  else if text = "-" then .dash
  else if text.toList.head? = some '-' then .unknown text
  else .input text

inductive ArgumentFault where
  | missingInput
  | repeatedInput
  | unknownOption (text : String)
deriving DecidableEq, Repr

/-- Names the input, unless it has a name already. -/
def Settings.nameInput (settings : Settings) (name : String) : Except ArgumentFault Settings :=
  match settings.input with
  | some _ => .error .repeatedInput
  | none => .ok { settings with input := some name }

inductive Request where
  | help
  | version
  | run (settings : Settings)
deriving DecidableEq, Repr

def Request.scan : Settings → List String → Except ArgumentFault Request
  | settings, [] => .ok (.run settings)
  | settings, text :: rest =>
      match Argument.ofText text with
      | .help => .ok .help
      | .version => .ok .version
      | .flag flag => scan (flag.set settings) rest
      | .dash => scan settings rest
      | .unknown option => .error (.unknownOption option)
      | .input name =>
          match settings.nameInput name with
          | .error fault => .error fault
          | .ok named => scan named rest
      | .inputFollows =>
          match rest with
          | [] => .error .missingInput
          | name :: after =>
              match settings.nameInput name with
              | .error fault => .error fault
              | .ok named => scan named after

/-- The request of a list of arguments. `color` is what holds where no argument
says anything about it. -/
def Request.ofArguments (color : Bool) (arguments : List String) : Except ArgumentFault Request :=
  scan (.initial color) arguments

end AccessRules.CommandLine
