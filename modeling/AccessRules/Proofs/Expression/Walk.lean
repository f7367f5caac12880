import AccessRules.Proofs.Expression.Flatten

namespace AccessRules

/-! The text of accessors in a row, one after the other.

Dots are decided while the flattened atoms are written, far from the accessor that
asks for one. What a stage knows of the last atom is enough to tell that each
accessor writes the same words wherever it stands.
-/

variable {stage source target : Stage}

/-- Accessors in a row, from the variables on. Operands are whatever elements there are. -/
inductive Walk : Stage → Type where
  | start : Walk .variables
  | step {source target : Stage} (walk : Walk source) (accessor : Accessor source target) :
      Walk target

namespace Accessor

/-- Whether an accessor asks something of the value in front of it. Variables have none,
and an operator asks nothing. -/
def isAsked (accessor : Accessor source target) : Bool :=
  match source, accessor with
  | .variables, _ => false
  | .value _, .operate _ _ => false
  | _, _ => true

/-- The name, token or operand that an accessor stands for. -/
def ownText : Accessor source target → String
  | .auth => "auth"
  | .now => "now"
  | .snapshot origin => origin.name
  | .unary operator => operator.text
  | .evaluate operand => operand.element.text
  | .scope operand => "(" ++ operand.element.text ++ ")"
  | .operate operator _ => operator.text
  | .provider => "provider"
  | .uid => "uid"
  | .token => "token"
  | .claim field => field.text
  | .read _ => "val()"
  | .child path => "child(" ++ path.text ++ ")"
  | .parent => "parent()"
  | .hasChild path => "hasChild(" ++ path.text ++ ")"
  | .hasEvery paths => "hasChildren(" ++ pathList paths ++ ")"
  | .ask query => query.name ++ "()"
  | .priority => "getPriority()"
  | .length => "length"
  | .search query argument => query.name ++ "('" ++ argument ++ "')"
  | .replace substring replacement => "replace('" ++ substring ++ "','" ++ replacement ++ "')"
  | .changeCase letterCase => letterCase.name ++ "()"
  | .matchPattern pattern => "matches(" ++ pattern ++ ")"

/-- What an accessor writes. A dot stands only between it and the value that it asks. -/
def words (accessor : Accessor source target) : String :=
  (if accessor.isAsked then "." else "") ++ accessor.ownText

end Accessor

namespace Walk

def builder : {stage : Stage} → Walk stage → Builder stage
  | _, .start => .start
  | _, .step walk accessor => walk.builder.step accessor

def words : {stage : Stage} → Walk stage → List String
  | _, .start => []
  | _, .step walk accessor => walk.words ++ [accessor.words]

end Walk

/-- Whether the atoms at a stage end in a member, where the stage tells. Nothing is
known of an operand that stands at the end, and nothing is ever asked of one. -/
def Stage.endsInMember? : Stage → Option Bool
  | .variables => some false
  | .value .any => none
  | _ => some true

theorem Stage.endsInMember?_value {kind : Kind} {flag : Bool}
    (known : flag ∈ (Stage.value kind).endsInMember?) : flag = true := by
  cases kind <;> simp [endsInMember?] at known <;> exact known

theorem Accessor.endsInMember_atoms (accessor : Accessor source target) (afterMember : Bool)
    {flag : Bool} (known : flag ∈ target.endsInMember?) :
    Atom.endsInMember afterMember accessor.atoms = flag := by
  -- a claim or a read may lead to a value of any kind, where nothing is known
  cases accessor with
  | unary operator => cases known; rfl
  | operate operator accepted => cases known; rfl
  | evaluate operand => cases known
  | scope operand => cases known
  | claim field => rw [Stage.endsInMember?_value known]; rfl
  | read kind => rw [Stage.endsInMember?_value known]; rfl
  | priority => cases known
  | _ => cases known; rfl

theorem Walk.endsInMember_flatten (walk : Walk stage) {flag : Bool}
    (known : flag ∈ stage.endsInMember?) :
    Atom.endsInMember false walk.builder.chain.flatten = flag := by
  cases walk with
  | start => cases known; rfl
  | step walk accessor =>
      rw [builder, Builder.step, Accessor.flatten_apply, Atom.endsInMember_append]
      exact accessor.endsInMember_atoms _ known

theorem Atom.write_asked (text : String) : Atom.write true [.member text] = "." ++ text := by
  simp [write, isMember, Atom.text]

theorem Atom.write_single {afterMember : Bool} {atom : Atom}
    (free : afterMember = false ∨ atom.isMember = false) :
    Atom.write afterMember [atom] = atom.text := by
  rcases free with rfl | other
  · simp [write]
  · simp [write, other]

theorem Accessor.ownText_search (query : StringQuery) (argument : String) :
    query.name ++ "(" ++ quoteArgument argument ++ ")" = (search query argument).ownText := by
  simp only [quoteArgument, ownText, String.append_assoc]
  rfl

theorem Accessor.ownText_replace (substring replacement : String) :
    "replace(" ++ (quoteArgument substring ++ "," ++ quoteArgument replacement) ++ ")" =
      (replace substring replacement).ownText := by
  simp only [quoteArgument, ownText, String.append_assoc]
  rfl

/-- Behind whatever its stage allows, an accessor writes its own words. -/
theorem Accessor.write_atoms (accessor : Accessor source target) {afterMember : Bool}
    (known : ∀ flag ∈ source.endsInMember?, afterMember = flag) :
    Atom.write afterMember accessor.atoms = accessor.words := by
  cases accessor with
  | auth => exact Atom.write_single (.inl (known false rfl))
  | now => exact Atom.write_single (.inl (known false rfl))
  | snapshot origin => exact Atom.write_single (.inl (known false rfl))
  | unary operator => exact Atom.write_single (.inr rfl)
  | operate operator accepted => exact Atom.write_single (.inr rfl)
  | evaluate operand =>
      rw [known false rfl]
      simp [atoms, words, isAsked, ownText, Element.text]
  | scope operand =>
      simp [atoms, words, isAsked, ownText, Atom.write, Atom.write_append, Atom.isMember,
        Atom.text, Token.text, Element.text, String.append_assoc]
  | search query argument =>
      rw [known true rfl, atoms, Atom.write_asked, ownText_search]
      rfl
  | replace substring replacement =>
      rw [known true rfl, atoms, Atom.write_asked, ownText_replace]
      rfl
  | _ =>
      rw [known true rfl, atoms, Atom.write_asked]
      rfl

/-- The text of a walk is the words of its accessors in a row. -/
theorem Walk.text_eq_join_words (walk : Walk stage) :
    walk.builder.chain.text = String.join walk.words := by
  induction walk with
  | start => rfl
  | step walk accessor ih =>
      have known : ∀ flag ∈ Stage.endsInMember? _,
          Atom.endsInMember false walk.builder.chain.flatten = flag :=
        fun flag member => walk.endsInMember_flatten member
      calc (walk.step accessor).builder.chain.text
          = Atom.write false (walk.builder.chain.flatten ++ accessor.atoms) := by
            rw [builder, Builder.step, Chain.text, Accessor.flatten_apply]
        _ = walk.builder.chain.text ++ accessor.words := by
            rw [Atom.write_append, accessor.write_atoms known, Chain.text]
        _ = String.join (walk.step accessor).words := by
            simp [ih, words, String.join_append]

end AccessRules
