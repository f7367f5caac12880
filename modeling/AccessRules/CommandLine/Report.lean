import AccessRules.Rules.Key
import AccessRules.Rules.Run

namespace AccessRules.CommandLine

inductive Style where
  | bold
  | dim
  | green
  | yellow
  | blue
  | cyan
  | gray
deriving DecidableEq, Repr

def Style.code : Style → String
  | .bold => "1"
  | .dim => "2"
  | .green => "32"
  | .yellow => "33"
  | .blue => "34"
  | .cyan => "36"
  | .gray => "90"

/-- The text in a style, or bare where color is off. Styles nest by wrapping. -/
def styled (color : Bool) (style : Style) (text : String) : String :=
  if color then "\x1b[" ++ style.code ++ "m" ++ text ++ "\x1b[0m" else text

/-- Fills a label up to the width of its column. -/
def column (label : String) : String :=
  label ++ String.ofList (List.replicate (14 - label.length) ' ')

def heading (color : Bool) (title : String) : String :=
  "\n" ++ styled color .gray ("━━━ " ++ title ++ " ━━━") ++ "\n"

def checkLine (color : Bool) (name : String) (enabled : Bool) : String :=
  let state := if enabled then styled color .green "✓ on" else styled color .dim "✗ off"
  "  " ++ styled color .blue (column name) ++ " " ++ state ++ "\n"

def countLine (color : Bool) (label : String) (count : Nat) : String :=
  "  " ++ styled color .dim (column label) ++ " " ++ styled color .yellow (toString count) ++ "\n"

/-- The whole report. `elapsed` is the text of the time that the compilation took. -/
def reportText (color : Bool) (source elapsed : String) (strictness : Strictness) (tally : Tally) :
    String :=
  "\n" ++ styled color .bold (styled color .cyan ("⚙  Compiled: " ++ source)) ++ "\n" ++
  heading color "Checks" ++
  checkLine color "reserved keys" strictness.reservedKeys ++
  checkLine color "wildcards" strictness.wildcards ++
  checkLine color "permissions" strictness.permissions ++
  heading color "Tree" ++
  countLine color "locations" tally.locations ++
  countLine color "expressions" tally.expressions ++
  countLine color "thunks" tally.deferred ++
  countLine color "index hints" tally.indexHints ++
  countLine color "scalars" tally.scalars ++
  countLine color "max depth" tally.maxDepth ++
  (if tally.leaves = 0 then "\n" ++ styled color .dim "  No rules defined" ++ "\n" else "") ++
  heading color "Timing" ++
  "  Total: " ++ styled color .green elapsed ++ "\n" ++
  "\n"

end AccessRules.CommandLine
