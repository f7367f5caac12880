import AccessRules.Element
import AccessRules.Kind

namespace AccessRules

/-- An expression. Without a kind it may only stand where any expression may. -/
structure Term where
  element : Element
  kind : Option Kind

/-- A term that may stand in a place with the given role. -/
structure Operand (role : Role) where
  term : Term
  accepted : role.accepts term.kind = true

def Operand.element {role : Role} (operand : Operand role) : Element := operand.term.element

namespace Term

def null : Term := ⟨.literal .null, some .null⟩

def boolean (value : Bool) : Term := ⟨.literal (.boolean value), some .boolean⟩

def number (value : Binary64) : Term := ⟨.literal (.number value), some .number⟩

def string (value : String) : Term := ⟨.literal (.string value), some .string⟩

/-- An element of which no kind is known or assumed. -/
def plain (element : Element) : Term := ⟨element, none⟩

def operand? (term : Term) (role : Role) : Option (Operand role) :=
  if accepted : role.accepts term.kind = true then some ⟨term, accepted⟩ else none

/-- Every term is an expression. -/
def operand (term : Term) : Operand .expression := ⟨term, rfl⟩

def roles (term : Term) : List Role := Role.all.filter (·.accepts term.kind)

theorem mem_roles {term : Term} {role : Role} :
    role ∈ term.roles ↔ role.accepts term.kind = true := by
  simp [roles, Role.mem_all]

end Term

end AccessRules
