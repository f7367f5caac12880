import AccessRules.Json.Reader.Text

namespace AccessRules.Json

def isBlank (char : Char) : Bool :=
  char == ' ' || char == '\t' || char == '\n' || char == '\r'

def skipBlanks (text : List Char) : List Char := text.dropWhile isBlank

/-- The rest of one of the three words. -/
def readWord (value : Json) : List Char → Reader Json
  | [], text => .ok (value, text)
  | _ :: _, [] => failAt .endOfValue []
  | expected :: more, char :: rest =>
      if char = expected then readWord value more rest else failAt .expectedWord (char :: rest)

/-- What follows an item: another one, or the end of the list. Each step takes a
comma, so as many steps as there are characters suffice. -/
def readMoreItems (item : Reader Json) : Nat → Reader (List Json)
  | 0, text => failAt .endOfList text
  | steps + 1, text =>
      match skipBlanks text with
      | [] => failAt .endOfList []
      | ']' :: rest => .ok ([], rest)
      | ',' :: rest =>
          match skipBlanks rest with
          | [] => failAt .endOfValue []
          | ']' :: after => failAt .trailingComma (']' :: after)
          | next =>
              match item next with
              | .error fault => .error fault
              | .ok (value, after) =>
                  (readMoreItems item steps after).map fun (values, last) => (value :: values, last)
      | other => failAt .expectedListEnd other

def readList (item : Reader Json) (text : List Char) : Reading (List Json) :=
  match skipBlanks text with
  | [] => failAt .endOfList []
  | ']' :: rest => .ok ([], rest)
  | next =>
      match item next with
      | .error fault => .error fault
      | .ok (value, after) =>
          (readMoreItems item (after.length + 1) after).map fun (values, last) => (value :: values, last)

/-- A key, a colon and a value. -/
def readMember (item : Reader Json) (text : List Char) : Reading (String × Json) :=
  match text with
  | '"' :: rest =>
      match readString rest with
      | .error fault => .error fault
      | .ok (key, afterKey) =>
          match skipBlanks afterKey with
          | [] => failAt .endOfObject []
          | ':' :: afterColon =>
              (item afterColon).map fun (value, after) => ((key, value), after)
          | other => failAt .expectedColon other
  | other => failAt .expectedKey other

/-- What follows a member: another one, or the end of the object. Steps are as for
lists. -/
def readMoreMembers (item : Reader Json) : Nat → Reader (List (String × Json))
  | 0, text => failAt .endOfObject text
  | steps + 1, text =>
      match skipBlanks text with
      | [] => failAt .endOfObject []
      | '}' :: rest => .ok ([], rest)
      | ',' :: rest =>
          match skipBlanks rest with
          | [] => failAt .endOfValue []
          | '}' :: after => failAt .trailingComma ('}' :: after)
          | next =>
              match readMember item next with
              | .error fault => .error fault
              | .ok (pair, after) =>
                  (readMoreMembers item steps after).map fun (pairs, last) => (pair :: pairs, last)
      | other => failAt .expectedObjectEnd other

def readObject (item : Reader Json) (text : List Char) : Reading (List (String × Json)) :=
  match skipBlanks text with
  | [] => failAt .endOfObject []
  | '}' :: rest => .ok ([], rest)
  | next =>
      match readMember item next with
      | .error fault => .error fault
      | .ok (pair, after) =>
          (readMoreMembers item (after.length + 1) after).map fun (pairs, last) => (pair :: pairs, last)

/-- One value after blanks. `inner` reads the values inside a list or an object
and is absent where no further nesting is allowed. -/
def readValueWith (inner : Option (Reader Json)) (text : List Char) : Reading Json :=
  match skipBlanks text with
  | [] => failAt .endOfValue []
  | 'n' :: rest => readWord .null ['u', 'l', 'l'] rest
  | 't' :: rest => readWord (.boolean true) ['r', 'u', 'e'] rest
  | 'f' :: rest => readWord (.boolean false) ['a', 'l', 's', 'e'] rest
  | '-' :: rest => readNumber true rest
  | '"' :: rest => (readString rest).map fun (value, after) => (.string value, after)
  | '[' :: rest =>
      match inner with
      | none => failAt .tooDeep ('[' :: rest)
      | some item => (readList item rest).map fun (items, after) => (.array items, after)
  | '{' :: rest =>
      match inner with
      | none => failAt .tooDeep ('{' :: rest)
      | some item =>
          (readObject item rest).map fun (pairs, after) => (.object (Entries.ofPairs pairs), after)
  | next :: rest =>
      if next.isDigit then readNumber false (next :: rest) else failAt .expectedValue (next :: rest)

def readValue : Nat → Reader Json
  | 0 => readValueWith none
  | depth + 1 => readValueWith (some (readValue depth))

def nestingLimit : Nat := 127

def readDocument (text : List Char) : Except Fault Json :=
  match readValue nestingLimit text with
  | .error fault => .error fault
  | .ok (json, rest) =>
      match skipBlanks rest with
      | [] => .ok json
      | other => failAt .trailingText other

/-- The document that a text holds, or what is wrong with it and where. -/
def read (text : String) : Except String Json :=
  (readDocument text.toList).mapError (·.describe text.toList)

end AccessRules.Json
