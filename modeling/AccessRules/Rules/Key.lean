import AccessRules.Rules.Location

namespace AccessRules

namespace Key

def read : String := ".read"

def write : String := ".write"

def validate : String := ".validate"

/-- Holds the list of child keys to index. -/
def indexOn : String := ".indexOn"

/-- An entry of that list that indexes a location by its own value. -/
def value : String := ".value"

/-- Usual names of wildcards. Every key that starts with a dollar sign is one. -/
def id : String := "$id"

def location : String := "$location"

def other : String := "$other"

def permissions : List String := [read, write, validate]

/-- What a key makes of the value under it. -/
inductive Class where
  | permission
  | indexOn
  /-- Starts with a dot and is not a reserved name. -/
  | unknownReserved
  | wildcard
  | child
deriving DecidableEq, Repr

def classify (key : String) : Class :=
  if key = indexOn then .indexOn
  else if permissions.contains key then .permission
  else if key.toList.head? = some '.' then .unknownReserved
  else if key.toList.head? = some '$' then .wildcard
  else .child

def isNameStart (char : Char) : Bool := char.isAlpha || char == '_'

def isNamePart (char : Char) : Bool := char.isAlphanum || char == '_'

/-- A dollar sign followed by an identifier of ASCII letters, digits and underscores. -/
def isValidWildcard (key : String) : Bool :=
  match key.toList with
  | '$' :: first :: rest => isNameStart first && rest.all isNamePart
  | _ => false

end Key

structure Strictness where
  /-- Keys that start with a dot must be reserved names. -/
  reservedKeys : Bool
  /-- Wildcards must be valid. -/
  wildcards : Bool
  /-- Permissions must be booleans or expressions. -/
  permissions : Bool
deriving DecidableEq, Repr

namespace Strictness

def lenient : Strictness := ⟨false, false, false⟩

def strict : Strictness := ⟨true, true, true⟩

def union (left right : Strictness) : Strictness where
  reservedKeys := left.reservedKeys || right.reservedKeys
  wildcards := left.wildcards || right.wildcards
  permissions := left.permissions || right.permissions

/-- The checks as the bits of one number. -/
def bits (strictness : Strictness) : Nat :=
  strictness.reservedKeys.toNat + 2 * strictness.wildcards.toNat + 4 * strictness.permissions.toNat

end Strictness

end AccessRules
