import AccessRules.Rules.Node

namespace AccessRules

namespace Json

mutual

/-- A document with the form of every value spelled out. -/
def describe : Json → String
  | .null => "Null"
  | .boolean value => "Bool(" ++ scalarText (.boolean value) ++ ")"
  | .integer value => "Number(" ++ scalarText (.integer value) ++ ")"
  | .float value => "Number(" ++ scalarText (.float value) ++ ")"
  | .string value => "String(" ++ Text.quoted value ++ ")"
  | .array items => "Array [" ++ String.intercalate ", " (describeItems items) ++ "]"
  | .object members =>
      "Object \x7b" ++ String.intercalate ", " (describeMembers members) ++ "\x7d"

def describeItems : List Json → List String
  | [] => []
  | item :: rest => item.describe :: describeItems rest

def describeMembers : List (String × Json) → List String
  | [] => []
  | (key, value) :: rest =>
      (Text.quoted key ++ ": " ++ value.describe) :: describeMembers rest

end

end Json

namespace RuleNode

mutual

/-- A deferred node is not made for its description. -/
def describe : RuleNode → String
  | .map entries => "\x7b" ++ String.intercalate ", " (describeEntries entries) ++ "\x7d"
  | .value json => json.compact
  | .expression element => "<" ++ element.text ++ ">"
  | .list items => "[" ++ String.intercalate ", " (Json.describeItems items) ++ "]"
  | .deferred _ _ => "<function>"

def describeEntries : List (String × RuleNode) → List String
  | [] => []
  | (key, node) :: rest => (Text.quoted key ++ ": " ++ node.describe) :: describeEntries rest

end

mutual

/-- What the renderings within a description report. -/
def describeWarnings : RuleNode → List Message
  | .map entries => describeEntriesWarnings entries
  | .expression element => element.warnings
  | .value _ => []
  | .list _ => []
  | .deferred _ _ => []

def describeEntriesWarnings : List (String × RuleNode) → List Message
  | [] => []
  | (_, node) :: rest => node.describeWarnings ++ describeEntriesWarnings rest

end

end RuleNode

end AccessRules
