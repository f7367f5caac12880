import AccessRules.Json.Basic
import AccessRules.Number.Shortest

namespace AccessRules.Json

/-- Floating-point numbers are written plainly from `1e-5` up to and without
`1e16`, with `.0` when they are whole, and with an exponent beyond. -/
def floatLayout : Decimal.Layout where
  plainFrom := -5
  plainTo := 15
  marksWhole := true
  tie := .even

/-- The text of a finite number. A zero keeps its sign. -/
def floatText (number : Binary64) : List Char :=
  (if number.negative then ['-'] else []) ++
    (if number.isZero then ['0', '.', '0']
    else floatLayout.write (number.shortest floatLayout.tie))

/-- Only the quote, the backslash and controls are escaped. -/
def escapeChar (char : Char) : List Char :=
  if char = '"' then ['\\', '"']
  else if char = '\\' then ['\\', '\\']
  else if char = '\x08' then ['\\', 'b']
  else if char = '\x0c' then ['\\', 'f']
  else if char = '\n' then ['\\', 'n']
  else if char = '\r' then ['\\', 'r']
  else if char = '\t' then ['\\', 't']
  else if char.toNat < 0x20 then
    ['\\', 'u', '0', '0', Nat.digitChar (char.toNat / 16), Nat.digitChar (char.toNat % 16)]
  else [char]

def quote (text : String) : String :=
  String.ofList ('"' :: text.toList.flatMap escapeChar ++ ['"'])

/-- The text of a value that holds no others. There is no number for what is not finite. -/
def scalarText : Json → String
  | .null => "null"
  | .boolean true => "true"
  | .boolean false => "false"
  | .integer value => toString value
  | .float value => if value.isFinite then String.ofList (floatText value) else "null"
  | .string value => quote value
  | .array _ => "[]"
  | .object _ => "\x7b\x7d"

mutual

/-- The text on one line, without blanks. -/
def compact : Json → String
  | .array items => "[" ++ String.intercalate "," (compactItems items) ++ "]"
  | .object members => "\x7b" ++ String.intercalate "," (compactMembers members) ++ "\x7d"
  | scalar => scalar.scalarText

def compactItems : List Json → List String
  | [] => []
  | item :: rest => item.compact :: compactItems rest

def compactMembers : List (String × Json) → List String
  | [] => []
  | (key, value) :: rest => (quote key ++ ":" ++ value.compact) :: compactMembers rest

end

/-- The start of a line at a nesting depth. -/
def lineStart (depth : Nat) : String :=
  String.ofList ('\n' :: List.replicate (2 * depth) ' ')

/-- Entries on lines of their own between two brackets. -/
def block (opening closing : String) (depth : Nat) (entries : List String) : String :=
  if entries.isEmpty then opening ++ closing
  else
    opening ++ String.intercalate "," (entries.map (lineStart (depth + 1) ++ ·)) ++
      lineStart depth ++ closing

mutual

/-- The text with two blanks of indent for each level of nesting. -/
def pretty (depth : Nat) : Json → String
  | .array items => block "[" "]" depth (prettyItems (depth + 1) items)
  | .object members => block "\x7b" "\x7d" depth (prettyMembers (depth + 1) members)
  | scalar => scalar.scalarText

def prettyItems (depth : Nat) : List Json → List String
  | [] => []
  | item :: rest => item.pretty depth :: prettyItems depth rest

def prettyMembers (depth : Nat) : List (String × Json) → List String
  | [] => []
  | (key, value) :: rest =>
      (quote key ++ ": " ++ value.pretty depth) :: prettyMembers depth rest

end

end AccessRules.Json
