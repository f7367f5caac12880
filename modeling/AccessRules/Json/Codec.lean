import AccessRules.Json.Printer
import AccessRules.Json.Reader

namespace AccessRules

/-- How documents are read and printed. A printer may refuse a document, and gives its reason. -/
structure JsonCodec where
  read : String → Except String Json
  /-- The text on one line. -/
  compact : Json → Except String String
  /-- The text with an entry on each line. -/
  pretty : Json → Except String String

namespace JsonCodec

/-- The reader and the printers of this library, which print every document. -/
def standard : JsonCodec where
  read := Json.read
  compact document := .ok document.compact
  pretty document := .ok (document.pretty 0)

/-- Both texts hold the same document, or neither holds any. -/
def SameValue (codec : JsonCodec) (left right : String) : Prop :=
  (codec.read left).toOption = (codec.read right).toOption

/-- What is relied on where one printer is taken for the other. -/
structure PrintersAgree (codec : JsonCodec) : Prop where
  printed : ∀ document, ∃ line indented, codec.compact document = .ok line ∧
    codec.pretty document = .ok indented ∧ codec.SameValue line indented
  /-- A line end behind a text is no part of the document. -/
  ended : ∀ document text, codec.compact document = .ok text ∨ codec.pretty document = .ok text →
    codec.SameValue (text ++ "\n") text

end JsonCodec

end AccessRules
