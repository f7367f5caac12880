import AccessRules.Rules.Location
import AccessRules.Text.Quoted

namespace AccessRules

inductive CompileFailure where
  | missingRules
  | indexNotList (location : Location)
  | unexpectedList (location : Location)
  | unknownReservedKey (key : String) (location : Location)
  | invalidWildcard (key : String) (location : Location)
  | invalidPermission (key : String) (location : Location)
deriving DecidableEq, Repr

namespace CompileFailure

def location? : CompileFailure → Option Location
  | .missingRules => none
  | .indexNotList location => some location
  | .unexpectedList location => some location
  | .unknownReservedKey _ location => some location
  | .invalidWildcard _ location => some location
  | .invalidPermission _ location => some location

def message : CompileFailure → String
  | .missingRules => "rule tree has no top-level \"" ++ Location.topKey ++ "\" key"
  | .indexNotList location => "value at " ++ location.text ++ " must be a list of child keys"
  | .unexpectedList location =>
      "unexpected list at " ++ location.text ++ "; lists are only allowed under .indexOn"
  | .unknownReservedKey key location =>
      "unknown reserved key " ++ Text.quoted key ++ " at " ++ location.text
  | .invalidWildcard key location =>
      "invalid wildcard key " ++ Text.quoted key ++ " at " ++ location.text
  | .invalidPermission key location =>
      key ++ " at " ++ location.text ++ " must be a boolean or an expression"

end CompileFailure

end AccessRules
