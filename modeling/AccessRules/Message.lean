import AccessRules.Rules.Location
import AccessRules.Text.Quoted

namespace AccessRules

/-! What the library reports while it builds, renders and compiles.

A message is its cause. The level and the wording follow from it.
-/

/-- The form in which a node of a rule tree is given. -/
inductive NodeForm where
  | map
  | value
  | expression
  | list
  | deferred
deriving DecidableEq, Repr

def NodeForm.name : NodeForm → String
  | .map => "map"
  | .value => "value"
  | .expression => "expression"
  | .list => "list"
  | .deferred => "thunk"

inductive Level where
  | warn
  | debug
  | trace
deriving DecidableEq, Repr

def Level.name : Level → String
  | .warn => "WARN"
  | .debug => "DEBUG"
  | .trace => "TRACE"

def Level.shownAt : Level → Level → Bool
  | .warn, _ => true
  | .debug, .warn => false
  | .debug, _ => true
  | .trace, threshold => threshold == .trace

inductive Message where
  /-- A rendered string literal holds a single quote. -/
  | literalQuote (text : String)
  /-- A quoted string argument holds a single quote. -/
  | argumentQuote (text : String)
  /-- The argument of a pattern test is not a pattern literal. -/
  | notPattern (text : String)
  | rootForm (form : NodeForm)
  | visiting (location : Location)
  | rendered (location : Location) (text : String)
  | producing (location : Location)
  | indexForm (location : Location) (form : NodeForm)
  | finished (locations expressions deferred : Nat)
deriving DecidableEq, Repr

namespace Message

def level : Message → Level
  | .literalQuote _ => .warn
  | .argumentQuote _ => .warn
  | .notPattern _ => .warn
  | .visiting _ => .trace
  | _ => .debug

def text : Message → String
  | .literalQuote text =>
      "string literal " ++ Text.quoted text ++ " contains a single quote and is emitted unescaped"
  | .argumentQuote text =>
      "string argument " ++ Text.quoted text ++ " contains a single quote and is emitted unescaped"
  | .notPattern text =>
      "matches() argument " ++ Text.quoted text ++ " is not a /pattern/flags literal"
  | .rootForm form => "rule tree root is a " ++ form.name ++ ", not a map"
  | .visiting location => "visiting " ++ location.text
  | .rendered location text => location.text ++ ": " ++ text
  | .producing location => location.text ++ ": invoking thunk"
  | .indexForm location form => location.text ++ " holds a " ++ form.name
  | .finished locations expressions deferred =>
      "compiled " ++ toString locations ++ " locations, " ++ toString expressions ++
        " expressions, " ++ toString deferred ++ " thunks"

end Message

end AccessRules
