import AccessRules.Entries
import AccessRules.Number.Binary64

namespace AccessRules

/-- A JSON document. Whole numbers within the 64-bit ranges stay apart from
floating-point ones, and the members of an object stay in order. -/
inductive Json where
  | null
  | boolean (value : Bool)
  | integer (value : Int)
  | float (value : Binary64)
  | string (value : String)
  | array (items : List Json)
  | object (members : List (String × Json))

namespace Json

/-- A floating-point number, or null where the document has no text for it. -/
def ofBinary64 (value : Binary64) : Json :=
  if value.isFinite then .float value else .null

def isBoolean : Json → Bool
  | .boolean _ => true
  | _ => false

def isString : Json → Bool
  | .string _ => true
  | _ => false

end Json

end AccessRules
