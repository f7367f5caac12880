import AccessRules.Proofs.Rules.Strictness
import AccessRules.Proofs.Rules.Verbatim

namespace AccessRules

/-! Where things stand in a compiled document.

The compiler checks the keys of a tree, not those of the document it writes. The
document resolves to the tree with its expressions rendered, which has the same
offences, so what the checks ask of a tree holds of the document at every depth.
-/

namespace Key

def IsLetter (char : Char) : Prop := ('a' ≤ char ∧ char ≤ 'z') ∨ ('A' ≤ char ∧ char ≤ 'Z')

def IsDigit (char : Char) : Prop := '0' ≤ char ∧ char ≤ '9'

/-- An identifier of ASCII characters: a letter or an underscore, and then any number of
letters, digits and underscores. -/
def IsIdentifier (name : List Char) : Prop :=
  ∃ first rest, name = first :: rest ∧ (IsLetter first ∨ first = '_') ∧
    ∀ char ∈ rest, IsLetter char ∨ IsDigit char ∨ char = '_'

theorem isAlpha_iff (char : Char) : char.isAlpha = true ↔ IsLetter char := by
  have spelled : char.isAlpha = (decide ('A' ≤ char ∧ char ≤ 'Z') ||
      (decide ('a' ≤ char) && decide (char ≤ 'z'))) := rfl
  rw [spelled, Bool.or_eq_true, Bool.and_eq_true, decide_eq_true_iff, decide_eq_true_iff,
    decide_eq_true_iff, or_comm]
  rfl

theorem isDigit_iff (char : Char) : char.isDigit = true ↔ IsDigit char := by
  have spelled : char.isDigit = (decide ('0' ≤ char) && decide (char ≤ '9')) := rfl
  rw [spelled, Bool.and_eq_true, decide_eq_true_iff, decide_eq_true_iff]
  rfl

theorem isNameStart_iff (char : Char) :
    isNameStart char = true ↔ IsLetter char ∨ char = '_' := by
  simp [isNameStart, isAlpha_iff]

theorem isNamePart_iff (char : Char) :
    isNamePart char = true ↔ IsLetter char ∨ IsDigit char ∨ char = '_' := by
  have spelled : char.isAlphanum = (char.isAlpha || char.isDigit) := rfl
  simp [isNamePart, spelled, isAlpha_iff, isDigit_iff, or_assoc]

theorem isValidWildcard_iff (key : String) :
    isValidWildcard key = true ↔ ∃ name, key.toList = '$' :: name ∧ IsIdentifier name := by
  unfold isValidWildcard
  split
  next first rest spelled =>
    rw [Bool.and_eq_true, List.all_eq_true, isNameStart_iff]
    simp only [isNamePart_iff]
    constructor
    · rintro ⟨start, parts⟩
      exact ⟨first :: rest, spelled, first, rest, rfl, start, parts⟩
    · rintro ⟨name, same, head, tail, rfl, start, parts⟩
      rw [spelled] at same
      obtain ⟨rfl, rfl⟩ := List.cons.inj (List.cons.inj same).2
      exact ⟨start, parts⟩
  next other =>
    refine iff_of_false Bool.false_ne_true ?_
    rintro ⟨name, same, first, rest, rfl, _⟩
    exact other first rest same

end Key

namespace Json

/-- Whether the key stands somewhere in a document, outside its arrays, with this value. -/
def HasMember (json : Json) (key : String) (value : Json) : Prop :=
  ∃ keys, json.LeadsTo (keys ++ [key]) value

/-- What a document has to be to pass the checks. -/
structure WellPlaced (strictness : Strictness) (json : Json) : Prop where
  lists : json.ListsInPlace
  reserved : strictness.reservedKeys = true → ∀ key value, json.HasMember key value →
    key.toList.head? = some '.' → key ∈ [".indexOn", ".read", ".write", ".validate"]
  wildcards : strictness.wildcards = true → ∀ key value, json.HasMember key value →
    key.toList.head? = some '$' → ∃ name, key.toList = '$' :: name ∧ Key.IsIdentifier name
  permissions : strictness.permissions = true → ∀ key value, json.HasMember key value →
    key ∈ [".read", ".write", ".validate"] → value.isBoolean = true ∨ value.isString = true

variable {strictness : Strictness}

/-- What the checks ask of one key and of the value under it. -/
def MemberAllowed (strictness : Strictness) (key : String) (value : Json) : Prop :=
  (strictness.reservedKeys = true → key.toList.head? = some '.' → key ∈ Key.reserved) ∧
  (strictness.wildcards = true → key.toList.head? = some '$' →
    ∃ name, key.toList = '$' :: name ∧ Key.IsIdentifier name) ∧
  (strictness.permissions = true → key ∈ Key.permissions →
    value.isBoolean = true ∨ value.isString = true)

theorem wellPlaced_iff (json : Json) :
    json.WellPlaced strictness ↔
      json.ListsInPlace ∧ ∀ key value, json.HasMember key value →
        MemberAllowed strictness key value := by
  constructor
  · intro placed
    refine ⟨placed.lists, fun key value member => ⟨?_, ?_, ?_⟩⟩
    · intro asked
      exact placed.reserved asked key value member
    · intro asked
      exact placed.wildcards asked key value member
    · intro asked
      exact placed.permissions asked key value member
  · rintro ⟨lists, allowed⟩
    exact ⟨lists, fun asked key value member => (allowed key value member).1 asked,
      fun asked key value member => (allowed key value member).2.1 asked,
      fun asked key value member => (allowed key value member).2.2 asked⟩

theorem not_hasMember {json : Json} (leaf : ∀ members, json ≠ .object members) (key : String)
    (value : Json) : ¬ json.HasMember key value := by
  rintro ⟨keys, leads⟩
  have empty := (eq_of_leadsTo leaf leads).1
  exact List.append_ne_nil_of_right_ne_nil keys (List.cons_ne_nil key []) empty

theorem hasMember_object_iff (members : List (String × Json)) (key : String) (value : Json) :
    (object members).HasMember key value ↔
      (key, value) ∈ members ∨
        ∃ name child, (name, child) ∈ members ∧ child.HasMember key value := by
  constructor
  · rintro ⟨keys, leads⟩
    cases keys with
    | nil =>
        obtain ⟨child, member, rfl⟩ := leads
        exact .inl member
    | cons name keys =>
        obtain ⟨child, member, leads⟩ := leads
        exact .inr ⟨name, child, member, keys, leads⟩
  · rintro (member | ⟨name, child, member, keys, leads⟩)
    · exact ⟨[], value, member, rfl⟩
    · exact ⟨name :: keys, child, member, leads⟩

theorem wellPlaced_object_iff (members : List (String × Json)) :
    (object members).WellPlaced strictness ↔
      ∀ key child, (key, child) ∈ members →
        MemberAllowed strictness key child ∧
          if key = Key.indexOn then child.isArray = true else child.WellPlaced strictness := by
  rw [wellPlaced_iff, listsInPlace_object_iff]
  constructor
  · rintro ⟨lists, allowed⟩ key child member
    refine ⟨allowed key child ((hasMember_object_iff _ _ _).mpr (.inl member)), ?_⟩
    have placed := lists key child member
    by_cases index : key = Key.indexOn
    · simpa only [if_pos index] using placed
    · rw [if_neg index] at placed ⊢
      refine (wellPlaced_iff child).mpr ⟨placed, ?_⟩
      intro name value inside
      exact allowed name value ((hasMember_object_iff _ _ _).mpr (.inr ⟨key, child, member, inside⟩))
  · intro placed
    constructor
    · intro key child member
      have below := (placed key child member).2
      by_cases index : key = Key.indexOn
      · simpa only [if_pos index] using below
      · rw [if_neg index] at below ⊢
        exact below.lists
    · intro key value found
      rcases (hasMember_object_iff _ _ _).mp found with member | ⟨name, child, member, inside⟩
      · exact (placed key value member).1
      · have below := (placed name child member).2
        by_cases index : name = Key.indexOn
        · -- an array is not looked into, so it has no members of its own
          rw [if_pos index] at below
          exact absurd inside (not_hasMember (ne_object_of_isArray below) key value)
        · rw [if_neg index] at below
          exact ((wellPlaced_iff child).mp below).2 key value inside

theorem wellPlaced_of_isScalar {json : Json} (scalar : json.isScalar = true) :
    json.WellPlaced strictness := by
  refine (wellPlaced_iff json).mpr ⟨listsInPlace_of_isScalar scalar, ?_⟩
  intro key value found
  exact absurd found (not_hasMember (ne_object_of_isScalar scalar) key value)

theorem isPermission_resolved (json : Json) :
    json.resolved.isPermission = (json.isBoolean || json.isString) := by
  rw [← Outline.isPermission_document, document_resolved]

/-- A key and its value are allowed exactly if neither is an offence of its own. -/
theorem memberAllowed_iff (key : String) (location : Location) (value : Json) :
    MemberAllowed strictness key value ↔
      Key.offence? strictness key location = none ∧
        value.resolved.permissionOffences strictness key location = [] := by
  rw [Key.offence?_eq_none_iff, Resolved.permissionOffences_eq_nil_iff, isPermission_resolved,
    MemberAllowed, Key.isValidWildcard_iff, Bool.or_eq_true, and_assoc]
  simp only [not_and, Classical.not_not]

theorem permissionOffences_indexOn (location : Location) (child : Resolved) :
    child.permissionOffences strictness Key.indexOn location = [] := by
  have apart : Key.indexOn ∉ Key.permissions := by decide
  simp [Resolved.permissionOffences, apart]

theorem offencesUnder_resolved_eq_nil_iff (key : String) (location : Location) (child : Json)
    (below : child.resolved.offences strictness location = [] ↔ child.WellPlaced strictness) :
    child.resolved.offencesUnder strictness key location = [] ↔
      MemberAllowed strictness key child ∧
        if key = Key.indexOn then child.isArray = true else child.WellPlaced strictness := by
  rw [Resolved.offencesUnder_eq_nil_iff, memberAllowed_iff key location]
  by_cases index : key = Key.indexOn
  · subst index
    simp only [↓reduceIte, isList_resolved, permissionOffences_indexOn, and_true]
  · simp only [if_neg index, below]
    rw [and_assoc, and_comm (a := child.WellPlaced strictness)]

mutual

/-- A document taken as rules has no offences exactly if it is well placed. -/
theorem offences_resolved_eq_nil_iff (location : Location) (json : Json) :
    json.resolved.offences strictness location = [] ↔ json.WellPlaced strictness := by
  cases json with
  | object members =>
      rw [wellPlaced_object_iff]
      exact entryOffences_resolvedMembers_eq_nil_iff location members
  | array items =>
      refine iff_of_false (List.cons_ne_nil _ _) ?_
      intro placed
      exact not_listsInPlace_array items placed.lists
  | _ => exact iff_of_true rfl (wellPlaced_of_isScalar rfl)

theorem entryOffences_resolvedMembers_eq_nil_iff (location : Location)
    (members : List (String × Json)) :
    Resolved.entryOffences strictness location (resolvedMembers members) = [] ↔
      ∀ key child, (key, child) ∈ members →
        MemberAllowed strictness key child ∧
          if key = Key.indexOn then child.isArray = true else child.WellPlaced strictness := by
  cases members with
  | nil => simp [resolvedMembers, Resolved.entryOffences]
  | cons member rest =>
      obtain ⟨key, child⟩ := member
      have first := offencesUnder_resolved_eq_nil_iff key (location.child key) child
        (offences_resolved_eq_nil_iff (location.child key) child)
      have later := entryOffences_resolvedMembers_eq_nil_iff location rest
      rw [resolvedMembers, Resolved.entryOffences_cons, List.append_eq_nil_iff, first, later,
        Entries.forall_mem_cons_iff]

end

theorem memberAllowed_topKey (rules : Json) :
    MemberAllowed strictness Location.topKey rules := by
  have child : Key.offence? strictness Location.topKey .top = none := by
    simp [Key.offence?, Location.topKey]
  have unasked : rules.resolved.permissionOffences strictness Location.topKey .top = [] := by
    have apart : Location.topKey ∉ Key.permissions := by decide
    simp [Resolved.permissionOffences, apart]
  exact (memberAllowed_iff _ _ _).mpr ⟨child, unasked⟩

/-- The key of the rules asks for nothing, so the whole is placed as the rules are. -/
theorem wellPlaced_topKey_iff (rules : Json) :
    (object [(Location.topKey, rules)]).WellPlaced strictness ↔ rules.WellPlaced strictness := by
  have other : Location.topKey ≠ Key.indexOn := by decide
  rw [wellPlaced_object_iff]
  constructor
  · intro placed
    have below := (placed _ _ (List.mem_singleton.mpr rfl)).2
    rwa [if_neg other] at below
  · intro placed key child member
    obtain ⟨rfl, rfl⟩ := Prod.mk.inj (List.mem_singleton.mp member)
    rw [if_neg other]
    exact ⟨memberAllowed_topKey child, placed⟩

end Json

theorem Resolved.wellPlaced_document {strictness : Strictness} {location : Location}
    (node : Resolved) (opened : node.Opened) (clean : node.offences strictness location = []) :
    node.document.WellPlaced strictness := by
  rw [← Json.offences_resolved_eq_nil_iff location, node.resolved_document opened,
    offences_rendered, clean]

namespace RuleNode

/-- Whatever compiles is well placed under the checks it was compiled with, and a document
whose rules are well placed compiles. So the checks say all there is to know of where the
keys, lists and permissions of compiled rules stand. -/
theorem compile_wellPlaced (strictness : Strictness) :
    (∀ (tree : RuleNode) (document : Json),
      (tree.compile strictness).result = .ok document → document.WellPlaced strictness) ∧
    ∀ document rules : Json, document.member? Location.topKey = some rules →
      rules.WellPlaced strictness →
      ((ofJson document).compile strictness).result = .ok (.object [(Location.topKey, rules)]) := by
  constructor
  · intro tree document compiled
    obtain ⟨rules, found, clean, rfl⟩ := (compile_eq_ok_iff _ _ _).mp compiled
    have opened : rules.Opened := Resolved.opened_of_rules? tree.opened_resolved found
    exact (Json.wellPlaced_topKey_iff _).mpr (rules.wellPlaced_document opened clean)
  · intro document rules member placed
    have found : (ofJson document).resolved.rules? = some rules.resolved := by
      rw [rules?_ofJson, member]
      rfl
    have clean : rules.resolved.offences strictness .top = [] :=
      (Json.offences_resolved_eq_nil_iff .top rules).mpr placed
    refine (compile_eq_ok_iff _ _ _).mpr ⟨rules.resolved, found, clean, ?_⟩
    rw [rules.document_resolved]

theorem compile_wellPlaced_nested :
    (nested.compile .strict).result = .ok nestedDocument ∧
    nestedDocument.WellPlaced .strict ∧
    ∃ rules, nestedDocument.member? Location.topKey = some rules ∧ rules.WellPlaced .strict ∧
      ((ofJson nestedDocument).compile .strict).result =
        .ok (.object [(Location.topKey, rules)]) := by
  obtain ⟨placed, accepted⟩ := compile_wellPlaced .strict
  have whole : nestedDocument.WellPlaced .strict := placed nested nestedDocument compile_nested
  have rules := (Json.wellPlaced_topKey_iff _).mp whole
  exact ⟨compile_nested, whole, _, rfl, rules, accepted nestedDocument _ rfl rules⟩

end RuleNode

end AccessRules
