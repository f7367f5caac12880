import AccessRules.Proofs.Rules.Resolved

namespace AccessRules

/-! Everything that is wrong with a rule tree, in the order in which a reader of the
resolved tree meets it.

Nothing stops at the first finding. What stands under a key that is refused, and
what stands under an index key, is not looked into.
-/

namespace Key

/-- The names with a dot in front that have a meaning. -/
def reserved : List String := indexOn :: permissions

def offence? (strictness : Strictness) (key : String) (location : Location) :
    Option CompileFailure :=
  if strictness.reservedKeys ∧ key.toList.head? = some '.' ∧ key ∉ reserved then
    some (.unknownReservedKey key location)
  else if strictness.wildcards ∧ key.toList.head? = some '$' ∧ ¬ isValidWildcard key then
    some (.invalidWildcard key location)
  else none

end Key

namespace Resolved

def isList : Resolved → Bool
  | .list _ => true
  | _ => false

/-- Booleans, strings and expressions may decide about an access. -/
def isPermission : Resolved → Bool
  | .scalar json => json.isBoolean || json.isString
  | .expression _ => true
  | _ => false

def indexOffences (location : Location) (child : Resolved) : List CompileFailure :=
  if child.isList then [] else [.indexNotList location]

def permissionOffences (strictness : Strictness) (key : String) (location : Location)
    (child : Resolved) : List CompileFailure :=
  if key ∈ Key.permissions ∧ strictness.permissions ∧ ¬ child.isPermission then
    [.invalidPermission key location]
  else []

mutual

def offences (strictness : Strictness) (location : Location) : Resolved → List CompileFailure
  | .map entries => entryOffences strictness location entries
  | .list _ => [.unexpectedList location]
  | .scalar _ => []
  | .expression _ => []

def entryOffences (strictness : Strictness) (location : Location) :
    List (String × Resolved) → List CompileFailure
  | [] => []
  | (key, child) :: rest =>
      let here := location.child key
      (match Key.offence? strictness key here with
        | some failure => [failure]
        | none =>
            if key = Key.indexOn then child.indexOffences here
            else child.offences strictness here ++
              child.permissionOffences strictness key here) ++
      entryOffences strictness location rest

end

/-- What is wrong with an entry of a map: with its key, or else with what stands under it. -/
def offencesUnder (strictness : Strictness) (key : String) (location : Location)
    (child : Resolved) : List CompileFailure :=
  match Key.offence? strictness key location with
  | some failure => [failure]
  | none =>
      if key = Key.indexOn then child.indexOffences location
      else child.offences strictness location ++ child.permissionOffences strictness key location

theorem entryOffences_cons (strictness : Strictness) (location : Location) (key : String)
    (child : Resolved) (rest : List (String × Resolved)) :
    entryOffences strictness location ((key, child) :: rest) =
      child.offencesUnder strictness key (location.child key) ++
        entryOffences strictness location rest := by
  rw [entryOffences]
  rfl

theorem offencesUnder_eq_nil_iff (strictness : Strictness) (key : String) (location : Location)
    (child : Resolved) :
    child.offencesUnder strictness key location = [] ↔
      Key.offence? strictness key location = none ∧
        if key = Key.indexOn then child.isList = true
        else child.offences strictness location = [] ∧
          child.permissionOffences strictness key location = [] := by
  unfold offencesUnder
  cases Key.offence? strictness key location with
  | some failure => simp
  | none =>
      by_cases index : key = Key.indexOn
      · simp [index, indexOffences]
      · simp [index]

/-- Whether the keys, taken one after the other, lead to a node of the tree. -/
def Leads : List String → Resolved → Prop
  | [], _ => True
  | key :: keys, .map entries => ∃ child, (key, child) ∈ entries ∧ child.Leads keys
  | _ :: _, _ => False

end Resolved

def RuleNode.offences (strictness : Strictness) (tree : RuleNode) : List CompileFailure :=
  match tree.resolved.rules? with
  | some rules => rules.offences strictness .top
  | none => [.missingRules]

theorem Location.text_eq_join (location : Location) :
    location.text = "/rules" ++ String.join (location.keys.map ("/" ++ ·)) := by
  obtain ⟨keys⟩ := location
  suffices spelled : ∀ path : String,
      keys.foldl (fun path key => path ++ "/" ++ key) path =
        path ++ String.join (keys.map ("/" ++ ·)) from spelled _
  induction keys with
  | nil => intro path; simp
  | cons key rest ih =>
      intro path
      rw [List.foldl_cons, ih]
      simp [String.append_assoc]

theorem Key.location_of_offence? {strictness : Strictness} {key : String} {location : Location}
    {failure : CompileFailure} (found : Key.offence? strictness key location = some failure) :
    failure.location? = some location := by
  unfold Key.offence? at found
  split at found
  · cases found; rfl
  · split at found
    · cases found; rfl
    · contradiction

namespace Resolved

theorem location_of_mem_indexOffences {location : Location} {child : Resolved}
    {failure : CompileFailure} (found : failure ∈ child.indexOffences location) :
    failure.location? = some location := by
  unfold indexOffences at found
  split at found
  · exact absurd found List.not_mem_nil
  · cases List.mem_singleton.mp found; rfl

theorem location_of_mem_permissionOffences {strictness : Strictness} {key : String}
    {location : Location} {child : Resolved} {failure : CompileFailure}
    (found : failure ∈ child.permissionOffences strictness key location) :
    failure.location? = some location := by
  unfold permissionOffences at found
  split at found
  · cases List.mem_singleton.mp found; rfl
  · exact absurd found List.not_mem_nil

mutual

/-- An offence stands where the keys of its location lead. -/
theorem location_of_mem_offences {strictness : Strictness} {location : Location}
    {failure : CompileFailure} (node : Resolved)
    (found : failure ∈ node.offences strictness location) :
    ∃ keys, node.Leads keys ∧ failure.location? = some ⟨location.keys ++ keys⟩ := by
  cases node with
  | map entries =>
      obtain ⟨key, child, keys, member, leads, located⟩ :=
        location_of_mem_entryOffences entries found
      exact ⟨key :: keys, ⟨child, member, leads⟩, located⟩
  | list items =>
      obtain rfl := List.mem_singleton.mp found
      exact ⟨[], trivial, by simp [CompileFailure.location?]⟩
  | scalar json => exact absurd found List.not_mem_nil
  | expression element => exact absurd found List.not_mem_nil

theorem location_of_mem_entryOffences {strictness : Strictness} {location : Location}
    {failure : CompileFailure} (entries : List (String × Resolved))
    (found : failure ∈ entryOffences strictness location entries) :
    ∃ key child keys, (key, child) ∈ entries ∧ child.Leads keys ∧
      failure.location? = some ⟨location.keys ++ key :: keys⟩ := by
  cases entries with
  | nil => exact absurd found List.not_mem_nil
  | cons entry rest =>
      obtain ⟨key, child⟩ := entry
      have atEntry (located : failure.location? = some (location.child key)) :
          ∃ key' child' keys, (key', child') ∈ (key, child) :: rest ∧ child'.Leads keys ∧
            failure.location? = some ⟨location.keys ++ key' :: keys⟩ :=
        ⟨key, child, [], List.mem_cons_self, trivial, located⟩
      rw [entryOffences_cons] at found
      rcases List.mem_append.mp found with here | later
      · unfold offencesUnder at here
        split at here
        next refused =>
          obtain rfl := List.mem_singleton.mp here
          exact atEntry (Key.location_of_offence? refused)
        next =>
          split at here
          · exact atEntry (location_of_mem_indexOffences here)
          · rcases List.mem_append.mp here with below | permission
            · obtain ⟨keys, leads, located⟩ := location_of_mem_offences child below
              exact ⟨key, child, keys, List.mem_cons_self, leads,
                by simpa [Location.child] using located⟩
            · exact atEntry (location_of_mem_permissionOffences permission)
      · obtain ⟨key', child', keys, member, leads, located⟩ :=
          location_of_mem_entryOffences rest later
        exact ⟨key', child', keys, List.mem_cons_of_mem _ member, leads, located⟩

end

end Resolved

end AccessRules
