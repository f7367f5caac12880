import AccessRules.Json.Basic

namespace AccessRules.Json

/-! Why and where the reading of a document ends without one.

A fault carries the text that was left unread. The place in the whole text is
computed from it once, when the fault is described.
-/

inductive Cause where
  | endOfValue
  | endOfList
  | endOfObject
  | endOfString
  | expectedValue
  | expectedWord
  | expectedColon
  | expectedListEnd
  | expectedObjectEnd
  | expectedKey
  | trailingComma
  | trailingText
  | invalidNumber
  | numberRange
  | controlCharacter
  | invalidEscape
  | loneSurrogate
  | unfinishedSurrogate
  | tooDeep
deriving DecidableEq, Repr

def Cause.message : Cause → String
  | .endOfValue => "EOF while parsing a value"
  | .endOfList => "EOF while parsing a list"
  | .endOfObject => "EOF while parsing an object"
  | .endOfString => "EOF while parsing a string"
  | .expectedValue => "expected value"
  | .expectedWord => "expected ident"
  | .expectedColon => "expected `:`"
  | .expectedListEnd => "expected `,` or `]`"
  | .expectedObjectEnd => "expected `,` or `\x7d`"
  | .expectedKey => "key must be a string"
  | .trailingComma => "trailing comma"
  | .trailingText => "trailing characters"
  | .invalidNumber => "invalid number"
  | .numberRange => "number out of range"
  | .controlCharacter => "control character (\\u0000-\\u001F) found while parsing a string"
  | .invalidEscape => "invalid escape"
  | .loneSurrogate => "lone leading surrogate in hex escape"
  | .unfinishedSurrogate => "unexpected end of hex escape"
  | .tooDeep => "recursion limit exceeded"

/-- Why reading ended, in front of which text, and how many bytes of that text
the place is to lie past. -/
structure Fault where
  cause : Cause
  unread : List Char
  ahead : Nat
deriving DecidableEq, Repr

/-- What a reading function gives: a value with the text after it, or a fault. -/
abbrev Reading (α : Type) := Except Fault (α × List Char)

abbrev Reader (α : Type) := List Char → Reading α

/-- A fault at the next character, which has been looked at and not taken. -/
def failAt {α : Type} (cause : Cause) (unread : List Char) : Except Fault α :=
  .error ⟨cause, unread, 1⟩

/-- A fault right before the unread text. -/
def failBefore {α : Type} (cause : Cause) (unread : List Char) : Except Fault α :=
  .error ⟨cause, unread, 0⟩

def byteLength (text : List Char) : Nat :=
  text.foldl (fun size char => size + char.utf8Size) 0

structure Position where
  line : Nat
  column : Nat
deriving DecidableEq, Repr

/-- Lines are counted from one, and columns in bytes from the last line break, up
to the given number of bytes. -/
def positionFrom : Position → Nat → List Char → Position
  | position, 0, _ => position
  | position, _, [] => position
  | position, left, char :: rest =>
      if char = '\n' then positionFrom ⟨position.line + 1, 0⟩ (left - 1) rest
      else
        positionFrom ⟨position.line, position.column + min left char.utf8Size⟩
          (left - char.utf8Size) rest

def Fault.position (fault : Fault) (text : List Char) : Position :=
  let total := byteLength text
  positionFrom ⟨1, 0⟩ (min total (total - byteLength fault.unread + fault.ahead)) text

def Fault.describe (fault : Fault) (text : List Char) : String :=
  let position := fault.position text
  fault.cause.message ++ " at line " ++ toString position.line ++ " column " ++
    toString position.column

end AccessRules.Json
