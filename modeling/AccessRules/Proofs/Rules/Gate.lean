import AccessRules.Proofs.Rules.Placement

namespace AccessRules

/-! What becomes of the entries of a map by their keys.

A gate refuses a key or lets it through. Behind the gate only the reserved names have a
meaning, each in its exact spelling: a key that comes close to one of them, by its letters
or by their case, names a child like any other. So no failure of a whole compilation names
a key that did not earn it.
-/

variable {location : Location} {failure : CompileFailure}

namespace Key

/-- Starts with a dot and is none of the names that have a meaning. -/
def IsUnknownReserved (key : String) : Prop :=
  key.toList.head? = some '.' ∧ key ∉ [".indexOn", ".read", ".write", ".validate"]

/-- Starts with a dollar sign, and what follows up to the end is no identifier. -/
def IsInvalidWildcard (key : String) : Prop :=
  key.toList.head? = some '$' ∧ ¬ ∃ name, key.toList = '$' :: name ∧ IsIdentifier name

theorem isInvalidWildcard_iff (key : String) :
    IsInvalidWildcard key ↔ key.toList.head? = some '$' ∧ ¬ isValidWildcard key = true := by
  rw [IsInvalidWildcard, isValidWildcard_iff]

/-- A key has one first character, so no two checks refuse it. -/
theorem not_isInvalidWildcard {key : String} (unknown : IsUnknownReserved key) :
    ¬ IsInvalidWildcard key := by
  intro invalid
  have dotted := unknown.1
  rw [invalid.1] at dotted
  contradiction

theorem offence?_eq_some_iff (strictness : Strictness) (key : String) (location : Location) :
    offence? strictness key location = some failure ↔
      (strictness.reservedKeys = true ∧ IsUnknownReserved key) ∧
          failure = .unknownReservedKey key location ∨
        (strictness.wildcards = true ∧ IsInvalidWildcard key) ∧
          failure = .invalidWildcard key location := by
  unfold offence?
  split
  next unknown =>
    have single : ¬ IsInvalidWildcard key := not_isInvalidWildcard unknown.2
    constructor
    · intro found
      exact .inl ⟨unknown, (Option.some.inj found).symm⟩
    · intro told
      obtain ⟨_, rfl⟩ | ⟨⟨_, invalid⟩, _⟩ := told
      · rfl
      · exact absurd invalid single
  next known =>
    split
    next refused =>
      have invalid : IsInvalidWildcard key := (isInvalidWildcard_iff key).mpr refused.2
      constructor
      · intro found
        exact .inr ⟨⟨refused.1, invalid⟩, (Option.some.inj found).symm⟩
      · intro told
        obtain ⟨unknown, _⟩ | ⟨_, rfl⟩ := told
        · exact absurd unknown known
        · rfl
    next valid =>
      refine iff_of_false (Ne.symm (Option.some_ne_none _)) ?_
      intro told
      obtain ⟨unknown, _⟩ | ⟨invalid, _⟩ := told
      · exact known unknown
      · exact valid ⟨invalid.1, (isInvalidWildcard_iff key).mp invalid.2⟩

theorem accept_result_eq_error_iff (strictness : Strictness) (key : String) (location : Location) :
    (accept strictness key location).result = .error failure ↔
      offence? strictness key location = some failure := by
  rw [accept_eq]
  cases offence? strictness key location with
  | some refusal => simp
  | none => simp [Run.pure_eq_done, Run.done]

theorem accept_eq_done_iff (strictness : Strictness) (key : String) (location : Location) :
    accept strictness key location = .done (classify key) ↔
      offence? strictness key location = none := by
  rw [accept_eq]
  cases offence? strictness key location with
  | some refusal => simp [Run.fail, Run.done]
  | none => simp [Run.pure_eq_done]

end Key

namespace RuleNode

def compileUnder (strictness : Strictness) (key : String) (location : Location) (depth : Nat)
    (child : RuleNode) : Run Json :=
  if key = ".indexOn" then child.compileIndex location
  else if key ∈ [".read", ".write", ".validate"] then
    child.compileNode strictness location depth >>= acceptPermission strictness key location
  else child.compileNode strictness location depth

variable (strictness : Strictness) (depth : Nat)

theorem compileEntries_cons (key : String) (child : RuleNode) (rest : List (String × RuleNode)) :
    compileEntries strictness location depth ((key, child) :: rest) = (do
      let _ ← Key.accept strictness key (location.child key)
      let value ← child.compileUnder strictness key (location.child key) (depth + 1)
      return (key, value) :: (← compileEntries strictness location depth rest)) := by
  rw [compileEntries, Key.accept_eq]
  cases Key.offence? strictness key (location.child key) with
  | some refusal => rfl
  | none =>
      have under : child.compileUnder strictness key (location.child key) (depth + 1) = _ :=
        (Key.dispatch_eq key _ _ _).symm
      rw [pure_bind, pure_bind, under]
      -- The rest of the entries follows inside every alternative of the walk.
      cases Key.classify key <;> simp only [bind_assoc]

/-- The entries of a map are walked through one after the other. -/
theorem compileEntries_append (before behind : List (String × RuleNode)) :
    compileEntries strictness location depth (before ++ behind) = (do
      let front ← compileEntries strictness location depth before
      return front ++ (← compileEntries strictness location depth behind)) := by
  induction before with
  | nil => simp [compileEntries]
  | cons entry rest ih =>
      obtain ⟨key, child⟩ := entry
      simp [compileEntries_cons, ih, bind_assoc]

end RuleNode

namespace CompileFailure

/-- Whether there is cause for a failure: its check is enabled, if it has one, and the key at the
end of its location is one that such a failure is about. -/
def Justified (strictness : Strictness) : CompileFailure → Prop
  | .missingRules => True
  | .indexNotList location => location.keys.getLast? = some ".indexOn"
  | .unexpectedList location => location.keys.getLast? ≠ some ".indexOn"
  | .unknownReservedKey key location =>
      strictness.reservedKeys = true ∧ Key.IsUnknownReserved key ∧
        location.keys.getLast? = some key
  | .invalidWildcard key location =>
      strictness.wildcards = true ∧ Key.IsInvalidWildcard key ∧
        location.keys.getLast? = some key
  | .invalidPermission key location =>
      strictness.permissions = true ∧ key ∈ [".read", ".write", ".validate"] ∧
        location.keys.getLast? = some key

end CompileFailure

theorem Location.getLast?_keys_child (location : Location) (key : String) :
    (location.child key).keys.getLast? = some key := by
  simp [child]

theorem Key.justified_of_offence? {strictness : Strictness} {key : String}
    (refused : Key.offence? strictness key (location.child key) = some failure) :
    failure.Justified strictness := by
  have last := location.getLast?_keys_child key
  obtain ⟨⟨asked, unknown⟩, rfl⟩ | ⟨⟨asked, invalid⟩, rfl⟩ :=
    (Key.offence?_eq_some_iff _ _ _).mp refused
  · exact ⟨asked, unknown, last⟩
  · exact ⟨asked, invalid, last⟩

namespace Resolved

variable {strictness : Strictness}

theorem justified_of_mem_permissionOffences {key : String} {child : Resolved}
    (found : failure ∈ child.permissionOffences strictness key (location.child key)) :
    failure.Justified strictness := by
  unfold permissionOffences at found
  split at found
  next asked =>
    obtain rfl := List.mem_singleton.mp found
    exact ⟨asked.2.1, asked.1, location.getLast?_keys_child key⟩
  next => exact absurd found List.not_mem_nil

theorem justified_of_mem_offencesUnder {key : String} {child : Resolved}
    (below : key ≠ Key.indexOn → failure ∈ child.offences strictness (location.child key) →
      failure.Justified strictness)
    (found : failure ∈ child.offencesUnder strictness key (location.child key)) :
    failure.Justified strictness := by
  unfold offencesUnder at found
  split at found
  next refused =>
    obtain rfl := List.mem_singleton.mp found
    exact Key.justified_of_offence? refused
  next =>
    by_cases index : key = Key.indexOn
    · rw [if_pos index, indexOffences] at found
      split at found
      · exact absurd found List.not_mem_nil
      · obtain rfl := List.mem_singleton.mp found
        exact (location.getLast?_keys_child key).trans (congrArg some index)
    · rw [if_neg index] at found
      rcases List.mem_append.mp found with inside | permission
      · exact below index inside
      · exact justified_of_mem_permissionOffences permission

mutual

theorem justified_of_mem_offences (node : Resolved) {location : Location}
    (plain : location.keys.getLast? ≠ some ".indexOn")
    (found : failure ∈ node.offences strictness location) : failure.Justified strictness := by
  cases node with
  | map entries => exact justified_of_mem_entryOffences entries found
  | list items =>
      -- a list is an offence only away from the index keys, which is what `plain` keeps track of
      obtain rfl := List.mem_singleton.mp found
      exact plain
  | scalar json => exact absurd found List.not_mem_nil
  | expression element => exact absurd found List.not_mem_nil

theorem justified_of_mem_entryOffences (entries : List (String × Resolved)) {location : Location}
    (found : failure ∈ entryOffences strictness location entries) :
    failure.Justified strictness := by
  cases entries with
  | nil => exact absurd found List.not_mem_nil
  | cons entry rest =>
      obtain ⟨key, child⟩ := entry
      rw [entryOffences_cons] at found
      rcases List.mem_append.mp found with here | later
      · apply justified_of_mem_offencesUnder _ here
        intro other inside
        apply justified_of_mem_offences child _ inside
        rw [location.getLast?_keys_child]
        exact fun same => other (Option.some.inj same)
      · exact justified_of_mem_entryOffences rest later

end

end Resolved

/-- However deep in a tree a compilation fails, the enabled checks and the exact name of the key
there give it cause. -/
theorem RuleNode.justified_of_compile {strictness : Strictness} {tree : RuleNode}
    (failed : (tree.compile strictness).result = .error failure) :
    failure.Justified strictness := by
  rw [compile_result] at failed
  cases found : tree.resolved.rules? with
  | none =>
      simp only [found, Except.error.injEq] at failed
      subst failed
      trivial
  | some rules =>
      simp only [found, verdict_eq_error_iff] at failed
      exact rules.justified_of_mem_offences (by simp [Location.top]) (List.mem_of_head? failed)

/-- The gate refuses a key for its spelling alone, and for one reason at most. Behind it the exact
names of the index key and of the permissions have a meaning; what stands under any other key is
walked through like every child, wherever the entry stands in its map. -/
theorem Key.gate_partitions_keys (strictness : Strictness) (key : String) (location : Location) :
    ((accept strictness key location).result = .error (.unknownReservedKey key location) ↔
      strictness.reservedKeys = true ∧ IsUnknownReserved key) ∧
    ((accept strictness key location).result = .error (.invalidWildcard key location) ↔
      strictness.wildcards = true ∧ IsInvalidWildcard key) ∧
    ¬ (IsUnknownReserved key ∧ IsInvalidWildcard key) ∧
    (accept strictness key location = .done (classify key) ↔
      ¬ (strictness.reservedKeys = true ∧ IsUnknownReserved key) ∧
        ¬ (strictness.wildcards = true ∧ IsInvalidWildcard key)) ∧
    ∀ (parent : Location) (depth : Nat) (child : RuleNode)
      (before behind : List (String × RuleNode)),
      RuleNode.compileEntries strictness parent depth (before ++ (key, child) :: behind) = (do
        let front ← RuleNode.compileEntries strictness parent depth before
        let _ ← accept strictness key (parent.child key)
        let value ← child.compileUnder strictness key (parent.child key) (depth + 1)
        return front ++ (key, value) ::
          (← RuleNode.compileEntries strictness parent depth behind)) := by
  refine ⟨?_, ?_, ?_, ?_, ?_⟩
  · rw [accept_result_eq_error_iff, offence?_eq_some_iff]
    simp
  · rw [accept_result_eq_error_iff, offence?_eq_some_iff]
    simp
  · intro both
    exact not_isInvalidWildcard both.1 both.2
  · rw [accept_eq_done_iff, offence?_eq_none_iff, ← isInvalidWildcard_iff]
    exact and_congr not_and.symm not_and.symm
  · intro parent depth child before behind
    simp [RuleNode.compileEntries_append, RuleNode.compileEntries_cons]

end AccessRules
