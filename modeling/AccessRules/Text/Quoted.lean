import AccessRules.Text.Hidden

namespace AccessRules.Text

/-! Texts between double quotes, as messages and printed trees show them.

The quote, the backslash and four controls have short escapes; every other
hidden character is written by its code point. A single quote is left alone.
-/

/-- The code point in braces, in lower-case hexadecimal without padding. -/
def escapeCodePoint (char : Char) : List Char :=
  '\\' :: 'u' :: '{' :: Nat.toDigits 16 char.toNat ++ ['}']

def escapeChar (char : Char) : List Char :=
  if char = '\x00' then ['\\', '0']
  else if char = '\t' then ['\\', 't']
  else if char = '\r' then ['\\', 'r']
  else if char = '\n' then ['\\', 'n']
  else if char = '"' then ['\\', '"']
  else if char = '\\' then ['\\', '\\']
  else if isHidden char then escapeCodePoint char
  else [char]

def quoted (text : String) : String :=
  String.ofList ('"' :: text.toList.flatMap escapeChar ++ ['"'])

end AccessRules.Text
