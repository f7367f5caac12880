import AccessRules.Literal
import AccessRules.Token

namespace AccessRules

/-! Expressions as nested chains of elements.

The list returned by `flatten` is the meaning of a chain: its text is written
from the flattened atoms alone, so how elements are grouped never shows.
-/

/-- An element that holds no others. -/
inductive Atom where
  /-- A property or a call with its written arguments. -/
  | member (text : String)
  | token (symbol : Token)
  | literal (scalar : Literal)
deriving DecidableEq

namespace Atom

def text : Atom → String
  | .member text => text
  | .token symbol => symbol.text
  | .literal scalar => scalar.text

def isMember : Atom → Bool
  | .member _ => true
  | _ => false

def warnings : Atom → List Message
  | .literal scalar => scalar.warnings
  | _ => []

def same : Atom → Atom → Bool
  | .literal left, .literal right => left.same right
  | left, right => left = right

/-- Writes atoms from left to right. A member directly after a member is joined
to it by a dot; `afterMember` tells whether the atom before the list was one. -/
def write : Bool → List Atom → String
  | _, [] => ""
  | afterMember, atom :: rest =>
      (if afterMember && atom.isMember then "." else "") ++ atom.text ++ write atom.isMember rest

/-- Whether the atom before the next one is a member, once the list is written. -/
def endsInMember : Bool → List Atom → Bool
  | afterMember, [] => afterMember
  | _, atom :: rest => endsInMember atom.isMember rest

/-- What is written for the second of two lists depends on the first through its
last atom alone. -/
theorem write_append (afterMember : Bool) (left right : List Atom) :
    write afterMember (left ++ right) =
      write afterMember left ++ write (endsInMember afterMember left) right := by
  induction left generalizing afterMember with
  | nil => simp [write, endsInMember]
  | cons atom rest ih => simp [write, endsInMember, ih, String.append_assoc]

theorem endsInMember_append (afterMember : Bool) (left right : List Atom) :
    endsInMember afterMember (left ++ right) =
      endsInMember (endsInMember afterMember left) right := by
  induction left generalizing afterMember with
  | nil => rfl
  | cons atom rest ih => exact ih atom.isMember

/-- A token is joined to nothing, and nothing is joined to it. -/
theorem write_token (afterMember : Bool) (left : List Atom) (symbol : Token) (right : List Atom) :
    write afterMember (left ++ .token symbol :: right) =
      write afterMember left ++ symbol.text ++ write false right := by
  rw [write_append]
  simp [write, isMember, text, String.append_assoc]

end Atom

inductive Element where
  | atom (leaf : Atom)
  | chain (elements : List Element)

/-- The direct elements of an expression, in order. -/
abbrev Chain := List Element

namespace Element

def member (text : String) : Element := .atom (.member text)

def call (name arguments : String) : Element := member (name ++ "(" ++ arguments ++ ")")

def token (symbol : Token) : Element := .atom (.token symbol)

def literal (scalar : Literal) : Element := .atom (.literal scalar)

mutual

/-- The atoms of an element in order, nested chains expanded in place. -/
def flatten : Element → List Atom
  | .atom leaf => [leaf]
  | .chain elements => flattenAll elements

def flattenAll : List Element → List Atom
  | [] => []
  | element :: rest => element.flatten ++ flattenAll rest

end

mutual

/-- Equality of structure, with numbers compared by value. -/
def same : Element → Element → Bool
  | .atom left, .atom right => left.same right
  | .chain left, .chain right => sameAll left right
  | _, _ => false

def sameAll : List Element → List Element → Bool
  | [], [] => true
  | left :: lefts, right :: rights => left.same right && sameAll lefts rights
  | _, _ => false

end

theorem flattenAll_append (left right : List Element) :
    flattenAll (left ++ right) = flattenAll left ++ flattenAll right := by
  induction left with
  | nil => rfl
  | cons element rest ih => simp [flattenAll, ih]

def text (element : Element) : String := Atom.write false element.flatten

/-- What a rendering of the element reports, in the order of its literals. -/
def warnings (element : Element) : List Message := element.flatten.flatMap Atom.warnings

end Element

namespace Chain

def flatten (chain : Chain) : List Atom := Element.flattenAll chain

def text (chain : Chain) : String := Atom.write false chain.flatten

/-- Whether the chain holds no atom, however many empty chains it holds. -/
def isBlank (chain : Chain) : Bool := chain.flatten.isEmpty

def extend (chain : Chain) (element : Element) : Chain := chain ++ [element]

/-- A new chain that holds the old one as its first element. -/
def branch (chain : Chain) (element : Element) : Chain := [.chain chain, element]

theorem flatten_extend (chain : Chain) (element : Element) :
    (chain.extend element).flatten = chain.flatten ++ element.flatten := by
  simp [flatten, extend, Element.flattenAll_append, Element.flattenAll]

theorem flatten_branch (chain : Chain) (element : Element) :
    (chain.branch element).flatten = chain.flatten ++ element.flatten := by
  simp [flatten, branch, Element.flattenAll, Element.flatten]

end Chain

end AccessRules
