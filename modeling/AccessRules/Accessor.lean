import AccessRules.Operand
import AccessRules.Path
import AccessRules.Text.Pattern
import AccessRules.Vocabulary

namespace AccessRules

/-! Expressions written from left to right.

A `Builder` stands at a stage, and an accessor leads from one stage to another,
so only what the rule language allows at a point can be asked for there. Binary
operators lead back to the variables, where the next operand starts.
-/

inductive Stage where
  /-- Where an operand starts. -/
  | variables
  | auth
  | token
  | snapshot
  | value (kind : Kind)
deriving DecidableEq, Repr

inductive Accessor : Stage → Stage → Type where
  | auth : Accessor .variables .auth
  | now : Accessor .variables (.value .number)
  | snapshot (origin : SnapshotVariable) : Accessor .variables .snapshot
  | unary (operator : UnaryOperator) : Accessor .variables .variables
  /-- Places an operand. -/
  | evaluate (operand : Operand .expression) : Accessor .variables (.value .any)
  /-- Places an operand between parentheses. -/
  | scope (operand : Operand .expression) : Accessor .variables (.value .any)
  | provider : Accessor .auth (.value .string)
  | uid : Accessor .auth (.value .string)
  | token : Accessor .auth .token
  | claim (field : Claim) : Accessor .token (.value field.kind)
  /-- The value of a snapshot, taken to be of the given kind. -/
  | read (kind : Kind) : Accessor .snapshot (.value kind)
  | child (path : Path) : Accessor .snapshot .snapshot
  | parent : Accessor .snapshot .snapshot
  | hasChild (path : Path) : Accessor .snapshot (.value .boolean)
  | hasEvery (paths : List Path) : Accessor .snapshot (.value .boolean)
  | ask (query : SnapshotQuery) : Accessor .snapshot (.value .boolean)
  | priority : Accessor .snapshot (.value .any)
  | operate {kind : Kind} (operator : BinaryOperator)
      (accepted : operator.role.accepts (some kind) = true) : Accessor (.value kind) .variables
  | length : Accessor (.value .string) (.value .number)
  | search (query : StringQuery) (argument : String) : Accessor (.value .string) (.value .boolean)
  | replace (substring replacement : String) : Accessor (.value .string) (.value .string)
  | changeCase (letterCase : LetterCase) : Accessor (.value .string) (.value .string)
  | matchPattern (pattern : String) : Accessor (.value .string) (.value .boolean)

namespace Accessor

/-- An argument between single quotes. A quote inside is not escaped. -/
def quoteArgument (text : String) : String := "'" ++ text ++ "'"

def pathList (paths : List Path) : String :=
  "[" ++ String.intercalate ", " (paths.map Path.text) ++ "]"

variable {source target : Stage}

/-- The chain after the accessor. Root variables, unary operators and everything
asked of `auth` and of snapshots start a new chain around the old one; the rest
continue it. -/
def apply : Accessor source target → Chain → Chain
  | .auth, chain => chain.branch (.member "auth")
  | .now, chain => chain.extend (.member "now")
  | .snapshot origin, chain => chain.branch (.member origin.name)
  | .unary operator, chain => chain.branch (.token (.unary operator))
  | .evaluate operand, chain => chain.branch operand.element
  | .scope operand, chain =>
      ((chain.branch (.token .openGroup)).extend operand.element).extend (.token .closeGroup)
  | .provider, chain => chain.branch (.member "provider")
  | .uid, chain => chain.branch (.member "uid")
  | .token, chain => chain.branch (.member "token")
  | .claim field, chain => chain.extend (.member field.text)
  | .read _, chain => chain.branch (.call "val" "")
  | .child path, chain => chain.branch (.call "child" path.text)
  | .parent, chain => chain.branch (.call "parent" "")
  | .hasChild path, chain => chain.branch (.call "hasChild" path.text)
  | .hasEvery paths, chain => chain.branch (.call "hasChildren" (pathList paths))
  | .ask query, chain => chain.branch (.call query.name "")
  | .priority, chain => chain.branch (.call "getPriority" "")
  | .operate operator _, chain => chain.extend (.token (.binary operator))
  | .length, chain => chain.extend (.member "length")
  | .search query argument, chain => chain.extend (.call query.name (quoteArgument argument))
  | .replace substring replacement, chain =>
      chain.extend (.call "replace" (quoteArgument substring ++ "," ++ quoteArgument replacement))
  | .changeCase letterCase, chain => chain.extend (.call letterCase.name "")
  | .matchPattern pattern, chain => chain.extend (.call "matches" pattern)

private def argumentWarnings (text : String) : List Message :=
  if Literal.hasQuote text then [.argumentQuote text] else []

def warnings : Accessor source target → List Message
  | .search _ argument => argumentWarnings argument
  | .replace substring replacement => argumentWarnings substring ++ argumentWarnings replacement
  | .matchPattern pattern => if Text.isPattern pattern.toList then [] else [.notPattern pattern]
  | _ => []

end Accessor

structure Builder (stage : Stage) where
  chain : Chain

namespace Builder

variable {source target : Stage}

def start : Builder .variables := ⟨[]⟩

def step (builder : Builder source) (accessor : Accessor source target) : Builder target :=
  ⟨accessor.apply builder.chain⟩

/-- The term built so far. Variables alone wait for an operand and are none. -/
def term? (builder : Builder source) : Option Term :=
  match source with
  | .variables => none
  | .value kind => some ⟨.chain builder.chain, some kind⟩
  | _ => some (.plain (.chain builder.chain))

end Builder

end AccessRules
