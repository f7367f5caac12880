import AccessRules.Kind

namespace AccessRules

inductive SnapshotVariable where
  | root
  | data
  | newData
deriving DecidableEq, Repr

def SnapshotVariable.name : SnapshotVariable → String
  | .root => "root"
  | .data => "data"
  | .newData => "newData"

inductive Claim where
  | email
  | emailVerified
  | phoneNumber
  | name
  | subject
  | identities
  | signInProvider
  | issuer
  | audience
  | authTime
  | issuedAt
  | expiresAt
deriving DecidableEq, Repr

def Claim.text : Claim → String
  | .email => "email"
  | .emailVerified => "email_verified"
  | .phoneNumber => "phone_number"
  | .name => "name"
  | .subject => "sub"
  | .identities => "firebase.identities"
  | .signInProvider => "firebase.sign_in_provider"
  | .issuer => "iss"
  | .audience => "aud"
  | .authTime => "auth_time"
  | .issuedAt => "iat"
  | .expiresAt => "exp"

def Claim.kind : Claim → Kind
  | .emailVerified => .boolean
  | .identities => .any
  | .authTime | .issuedAt | .expiresAt => .number
  | _ => .string

/-- Questions that a snapshot answers with a boolean. -/
inductive SnapshotQuery where
  | hasChildren
  | exist
  | isNumber
  | isString
  | isBoolean
deriving DecidableEq, Repr

def SnapshotQuery.name : SnapshotQuery → String
  | .hasChildren => "hasChildren"
  | .exist => "exists"
  | .isNumber => "isNumber"
  | .isString => "isString"
  | .isBoolean => "isBoolean"

inductive StringQuery where
  | contains
  | beginsWith
  | endsWith
deriving DecidableEq, Repr

def StringQuery.name : StringQuery → String
  | .contains => "contains"
  | .beginsWith => "beginsWith"
  | .endsWith => "endsWith"

inductive LetterCase where
  | lower
  | upper
deriving DecidableEq, Repr

def LetterCase.name : LetterCase → String
  | .lower => "toLowerCase"
  | .upper => "toUpperCase"

end AccessRules
