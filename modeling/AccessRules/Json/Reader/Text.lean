import AccessRules.Json.Reader.Number

namespace AccessRules.Json

def hexDigit? (char : Char) : Option Nat :=
  if char.isDigit then some (digitValue char)
  else if 'a' ≤ char ∧ char ≤ 'f' then some (char.toNat - 'a'.toNat + 10)
  else if 'A' ≤ char ∧ char ≤ 'F' then some (char.toNat - 'A'.toNat + 10)
  else none

/-- The code unit of four hexadecimal digits. Four bytes are taken at once, so a
text that is too short is noticed before a digit that is none. -/
def readCodeUnit (text : List Char) : Reading Nat :=
  match text with
  | first :: second :: third :: fourth :: rest =>
      match hexDigit? first, hexDigit? second, hexDigit? third, hexDigit? fourth with
      | some a, some b, some c, some d => .ok (((a * 16 + b) * 16 + c) * 16 + d, rest)
      | _, _, _, _ => .error ⟨.invalidEscape, text, 4⟩
  | _ =>
      if byteLength text < 4 then failBefore .endOfString []
      else .error ⟨.invalidEscape, text, 4⟩

def isLeading (unit : Nat) : Bool := 0xd800 ≤ unit && unit ≤ 0xdbff

def isTrailing (unit : Nat) : Bool := 0xdc00 ≤ unit && unit ≤ 0xdfff

/-- The second half of a surrogate pair, which has to follow as an escape. -/
def readTrailingUnit (leading : Nat) (text : List Char) : Reading Char :=
  match text with
  | [] => failBefore .endOfString []
  | ['\\'] => failBefore .endOfString []
  | '\\' :: 'u' :: rest =>
      match readCodeUnit rest with
      | .error fault => .error fault
      | .ok (unit, after) =>
          if isTrailing unit then
            .ok (Char.ofNat (0x10000 + (leading - 0xd800) * 0x400 + (unit - 0xdc00)), after)
          else failBefore .loneSurrogate after
  | '\\' :: after => failAt .unfinishedSurrogate after
  | _ => failAt .unfinishedSurrogate text

def readUnicodeEscape (text : List Char) : Reading Char :=
  match readCodeUnit text with
  | .error fault => .error fault
  | .ok (unit, rest) =>
      if isTrailing unit then failBefore .loneSurrogate rest
      else if isLeading unit then readTrailingUnit unit rest
      else .ok (Char.ofNat unit, rest)

/-- The character of an escape, after its backslash. -/
def readEscape (text : List Char) : Reading Char :=
  match text with
  | [] => failBefore .endOfString []
  | '"' :: rest => .ok ('"', rest)
  | '\\' :: rest => .ok ('\\', rest)
  | '/' :: rest => .ok ('/', rest)
  | 'b' :: rest => .ok ('\x08', rest)
  | 'f' :: rest => .ok ('\x0c', rest)
  | 'n' :: rest => .ok ('\n', rest)
  | 'r' :: rest => .ok ('\r', rest)
  | 't' :: rest => .ok ('\t', rest)
  | 'u' :: rest => readUnicodeEscape rest
  | _ => failAt .invalidEscape text

/-- The characters up to the closing quote. Each step takes a character, so as
many steps as there are characters suffice. -/
def readCharacters : Nat → Reader (List Char)
  | 0, text => failBefore .endOfString text
  | steps + 1, text =>
      match text with
      | [] => failBefore .endOfString []
      | '"' :: rest => .ok ([], rest)
      | '\\' :: rest =>
          match readEscape rest with
          | .error fault => .error fault
          | .ok (char, after) =>
              (readCharacters steps after).map fun (chars, last) => (char :: chars, last)
      | char :: rest =>
          if char.toNat < 0x20 then failAt .controlCharacter (char :: rest)
          else (readCharacters steps rest).map fun (chars, last) => (char :: chars, last)

def readString (text : List Char) : Reading String :=
  (readCharacters (text.length + 1) text).map fun (chars, rest) => (String.ofList chars, rest)

end AccessRules.Json
