namespace AccessRules

/-! Path arguments made of fixed text and of expressions.

Fixed segments side by side share one quoted literal, and segments are joined by
the operator that joins strings. How a segment is written depends on nothing but
itself and the kinds of its two neighbours.
-/

namespace Path

inductive Segment where
  /-- Path text, written inside quotes. -/
  | static (text : String)
  /-- The text of an expression, written as it stands. -/
  | dynamic (text : String)
deriving DecidableEq, Repr

def Segment.text : Segment → String
  | .static text => text
  | .dynamic text => text

def Segment.isStatic : Segment → Bool
  | .static _ => true
  | .dynamic _ => false

def dropLeadingSlash : List Char → List Char
  | '/' :: rest => rest
  | text => text

def dropTrailingSlash (text : List Char) : List Char :=
  if text.getLast? = some '/' then text.dropLast else text

/-- The text of a fixed segment without the slashes at its seams. The front slash
goes first, so that a lone slash is dropped once. -/
def trim (first last : Bool) (text : List Char) : List Char :=
  let front := if first then text else dropLeadingSlash text
  if last then front else dropTrailingSlash front

def joiner : List Char := [' ', '+', ' ']

/-- A segment between its neighbours. A fixed segment puts one slash at each seam,
opens the quotes unless the segment before it is fixed too, and leaves closing
them, and the slash between, to a fixed segment after it. -/
def Segment.write (previous next : Option Segment) : Segment → List Char
  | .static text =>
      (if previous.any Segment.isStatic then [] else ['\'']) ++
      (if previous.isSome then ['/'] else []) ++
      trim previous.isNone next.isNone text.toList ++
      (match next with
        | none => ['\'']
        | some (.static _) => []
        | some (.dynamic _) => ['/', '\''])
  | .dynamic text =>
      (if previous.isSome then joiner else []) ++ text.toList ++
      (if next.isSome then joiner else [])

def writeFrom : Option Segment → List Segment → List Char
  | _, [] => []
  | previous, segment :: rest => segment.write previous rest.head? ++ writeFrom (some segment) rest

end Path

structure Path where
  segments : List Path.Segment
deriving DecidableEq, Repr

namespace Path

def empty : Path := ⟨[]⟩

def isEmpty (path : Path) : Bool := path.segments.isEmpty

/-- Adds fixed text, the empty one included. -/
def push (path : Path) (text : String) : Path := ⟨path.segments ++ [.static text]⟩

def resolve (path : Path) (text : String) : Path := ⟨path.segments ++ [.dynamic text]⟩

/-- The path of a plain text. An empty text is the path without segments. -/
def ofText (text : String) : Path :=
  if text.isEmpty then empty else empty.push text

def write (path : Path) : List Char := writeFrom none path.segments

def text (path : Path) : String := String.ofList path.write

end Path

end AccessRules
