import AccessRules.Proofs.Rules.Completed

namespace AccessRules

/-! One tree under different checks.

A check can only add offences. Those of two sets of checks together are none exactly
when those of either set are none, and the document and the counts of a tree without
offences do not depend on the checks.
-/

/-- A failure that no choice of checks avoids. -/
def CompileFailure.isStructural : CompileFailure → Bool
  | .missingRules => true
  | .indexNotList _ => true
  | .unexpectedList _ => true
  | _ => false

variable {left right : Strictness} {location : Location} {failure : CompileFailure}

theorem Key.offence?_eq_none_iff (strictness : Strictness) (key : String) (location : Location) :
    Key.offence? strictness key location = none ↔
      (strictness.reservedKeys = true → ¬ (key.toList.head? = some '.' ∧ key ∉ Key.reserved)) ∧
      (strictness.wildcards = true →
        ¬ (key.toList.head? = some '$' ∧ ¬ Key.isValidWildcard key = true)) := by
  unfold Key.offence?
  split
  next refused =>
    exact iff_of_false (Option.some_ne_none _) fun allowed => allowed.1 refused.1 refused.2
  next reserved =>
    split
    next refused =>
      exact iff_of_false (Option.some_ne_none _) fun allowed => allowed.2 refused.1 refused.2
    next valid =>
      exact iff_of_true rfl
        ⟨fun asked wrong => reserved ⟨asked, wrong⟩, fun asked wrong => valid ⟨asked, wrong⟩⟩

theorem Key.offence?_union_eq_none_iff (left right : Strictness) (key : String)
    (location : Location) :
    Key.offence? (left.union right) key location = none ↔
      Key.offence? left key location = none ∧ Key.offence? right key location = none := by
  simp only [Key.offence?_eq_none_iff, Strictness.union, Bool.or_eq_true, or_imp]
  exact and_and_and_comm

theorem Key.not_isStructural_of_offence? {key : String}
    (refused : Key.offence? left key location = some failure) : failure.isStructural = false := by
  unfold Key.offence? at refused
  split at refused
  · cases refused
    rfl
  · split at refused
    · cases refused
      rfl
    · contradiction

namespace Resolved

theorem permissionOffences_eq_nil_iff (strictness : Strictness) (key : String)
    (location : Location) (child : Resolved) :
    child.permissionOffences strictness key location = [] ↔
      (strictness.permissions = true → ¬ (key ∈ Key.permissions ∧ ¬ child.isPermission = true)) := by
  unfold permissionOffences
  split
  next refused =>
    exact iff_of_false (List.cons_ne_nil _ _) fun allowed =>
      allowed refused.2.1 ⟨refused.1, refused.2.2⟩
  next allowed =>
    exact iff_of_true rfl fun asked wrong => allowed ⟨wrong.1, asked, wrong.2⟩

theorem permissionOffences_union_eq_nil_iff (left right : Strictness) (key : String)
    (location : Location) (child : Resolved) :
    child.permissionOffences (left.union right) key location = [] ↔
      child.permissionOffences left key location = [] ∧
        child.permissionOffences right key location = [] := by
  simp only [permissionOffences_eq_nil_iff, Strictness.union, Bool.or_eq_true, or_imp]

theorem not_isStructural_of_mem_permissionOffences {key : String} {child : Resolved}
    (found : failure ∈ child.permissionOffences left key location) :
    failure.isStructural = false := by
  unfold permissionOffences at found
  split at found
  · obtain rfl := List.mem_singleton.mp found
    rfl
  · exact absurd found List.not_mem_nil

theorem offencesUnder_union_eq_nil_iff (key : String) (child : Resolved)
    (below : child.offences (left.union right) location = [] ↔
      child.offences left location = [] ∧ child.offences right location = []) :
    child.offencesUnder (left.union right) key location = [] ↔
      child.offencesUnder left key location = [] ∧ child.offencesUnder right key location = [] := by
  simp only [offencesUnder_eq_nil_iff, Key.offence?_union_eq_none_iff]
  by_cases index : key = Key.indexOn
  · simp only [if_pos index]
    exact and_and_right
  · simp only [if_neg index, below, permissionOffences_union_eq_nil_iff]
    rw [and_and_and_comm (c := child.permissionOffences left key location = [])]
    exact and_and_and_comm

mutual

theorem offences_union_eq_nil_iff (left right : Strictness) (location : Location)
    (node : Resolved) :
    node.offences (left.union right) location = [] ↔
      node.offences left location = [] ∧ node.offences right location = [] := by
  cases node with
  | map entries => exact entryOffences_union_eq_nil_iff left right location entries
  | list items => simp [offences]
  | scalar json => simp [offences]
  | expression element => simp [offences]

theorem entryOffences_union_eq_nil_iff (left right : Strictness) (location : Location)
    (entries : List (String × Resolved)) :
    entryOffences (left.union right) location entries = [] ↔
      entryOffences left location entries = [] ∧ entryOffences right location entries = [] := by
  cases entries with
  | nil => simp [entryOffences]
  | cons entry rest =>
      obtain ⟨key, child⟩ := entry
      have here := offencesUnder_union_eq_nil_iff key child
        (offences_union_eq_nil_iff left right (location.child key) child)
      have later := entryOffences_union_eq_nil_iff left right location rest
      simp only [entryOffences_cons, List.append_eq_nil_iff, here, later]
      exact and_and_and_comm

end

/-- Under a key that passes all checks, the first offence is the child's or the one of
the permission, and the latter is not structural. -/
theorem head?_offencesUnder_of_union {key : String} {child : Resolved}
    (structural : failure.isStructural = true)
    (below : (child.offences (left.union right) location).head? = some failure →
      (child.offences left location).head? = some failure)
    (first : (child.offencesUnder (left.union right) key location).head? = some failure) :
    (child.offencesUnder left key location).head? = some failure := by
  cases refused : Key.offence? (left.union right) key location with
  | some offence =>
      have same : offence = failure := by simpa [offencesUnder, refused] using first
      have lenient := Key.not_isStructural_of_offence? refused
      rw [same, structural] at lenient
      contradiction
  | none =>
      have allowed := ((Key.offence?_union_eq_none_iff left right key location).mp refused).1
      simp only [offencesUnder, refused, allowed] at first ⊢
      by_cases index : key = Key.indexOn
      · simpa only [if_pos index] using first
      · rw [if_neg index, List.head?_append, Option.or_eq_some_iff] at first ⊢
        rcases first with inside | ⟨_, permission⟩
        · exact .inl (below inside)
        · have member := List.mem_of_mem_head? permission
          have lenient := not_isStructural_of_mem_permissionOffences member
          rw [structural] at lenient
          contradiction

mutual

theorem head?_offences_of_union {location : Location} (structural : failure.isStructural = true)
    (node : Resolved)
    (first : (node.offences (left.union right) location).head? = some failure) :
    (node.offences left location).head? = some failure := by
  cases node with
  | map entries => exact head?_entryOffences_of_union structural entries first
  | list items => exact first
  | scalar json => exact first
  | expression element => exact first

theorem head?_entryOffences_of_union {location : Location}
    (structural : failure.isStructural = true) (entries : List (String × Resolved))
    (first : (entryOffences (left.union right) location entries).head? = some failure) :
    (entryOffences left location entries).head? = some failure := by
  cases entries with
  | nil => exact first
  | cons entry rest =>
      obtain ⟨key, child⟩ := entry
      rw [entryOffences_cons, List.head?_append, Option.or_eq_some_iff] at first ⊢
      rcases first with here | ⟨clean, later⟩
      · exact .inl (head?_offencesUnder_of_union structural
          (head?_offences_of_union structural child) here)
      · rw [List.head?_eq_none_iff] at clean ⊢
        have below := offences_union_eq_nil_iff left right (location.child key) child
        have clear := ((offencesUnder_union_eq_nil_iff key child below).mp clean).1
        exact .inr ⟨clear, head?_entryOffences_of_union structural rest later⟩

end

end Resolved

namespace RuleNode

theorem compile_counted_eq_ok_iff (strictness : Strictness) (tree : RuleNode)
    (outcome : Json × Tally) :
    (tree.compile strictness).counted = .ok outcome ↔
      ∃ rules, tree.resolved.rules? = some rules ∧ rules.offences strictness .top = [] ∧
        (.object [(Location.topKey, rules.document)],
          (rules.tally 0).withDeferred tree.outline.rootDeferrals) = outcome := by
  rw [compile_counted]
  cases tree.resolved.rules? with
  | none => simp
  | some rules => simp only [verdict_eq_ok_iff, Option.some.injEq, exists_eq_left']

/-- The checks are independent, and each can only refuse. A tree passes two sets of
checks together exactly if it passes either, with one document and one tally for all
three. What fails together for its structure fails so without the second set. -/
theorem compile_union_restricts (left right : Strictness) (tree : RuleNode) :
    (∀ outcome, (tree.compile (left.union right)).counted = .ok outcome ↔
      (tree.compile left).counted = .ok outcome ∧ (tree.compile right).counted = .ok outcome) ∧
    (∀ failure, failure.isStructural = true →
      (tree.compile (left.union right)).result = .error failure →
      (tree.compile left).result = .error failure) ∧
    ∀ failure, (tree.compile left).result = .error failure →
      ∃ other, (tree.compile (left.union right)).result = .error other := by
  have together (outcome : Json × Tally) :
      (tree.compile (left.union right)).counted = .ok outcome ↔
        (tree.compile left).counted = .ok outcome ∧
          (tree.compile right).counted = .ok outcome := by
    simp only [compile_counted_eq_ok_iff, Resolved.offences_union_eq_nil_iff]
    constructor
    · rintro ⟨rules, found, ⟨leftClean, rightClean⟩, same⟩
      exact ⟨⟨rules, found, leftClean, same⟩, ⟨rules, found, rightClean, same⟩⟩
    · rintro ⟨⟨rules, found, leftClean, same⟩, ⟨others, again, rightClean, _⟩⟩
      obtain rfl : rules = others := Option.some.inj (found.symm.trans again)
      exact ⟨rules, found, ⟨leftClean, rightClean⟩, same⟩
  refine ⟨together, ?_, ?_⟩
  · intro failure structural failed
    rw [compile_result] at failed ⊢
    cases found : tree.resolved.rules? with
    | none => simpa only [found] using failed
    | some rules =>
        simp only [found, verdict_eq_error_iff] at failed ⊢
        exact Resolved.head?_offences_of_union structural rules failed
  · intro failure failed
    cases passed : (tree.compile (left.union right)).result with
    | error other => exact ⟨other, rfl⟩
    | ok document =>
        have counted := Run.counted_eq_ok_iff.mpr ⟨passed, rfl⟩
        have compiled := (Run.counted_eq_ok_iff.mp ((together _).mp counted).1).1
        rw [failed] at compiled
        contradiction

theorem compile_union_restricts_faulty :
    (faulty.compile (Strictness.union ⟨false, true, false⟩ ⟨false, false, true⟩)).result =
      .error (.unexpectedList ⟨[Key.read]⟩) ∧
    (faulty.compile ⟨false, true, false⟩).result = .error (.unexpectedList ⟨[Key.read]⟩) ∧
    ∃ other, (faulty.compile (Strictness.union ⟨false, true, false⟩ ⟨false, false, true⟩)).result =
      .error other := by
  have failed : (faulty.compile (Strictness.union ⟨false, true, false⟩ ⟨false, false, true⟩)).result =
      .error (.unexpectedList ⟨[Key.read]⟩) := by
    rw [compile_eq_outline]
    rfl
  obtain ⟨_, structural, remains⟩ :=
    compile_union_restricts ⟨false, true, false⟩ ⟨false, false, true⟩ faulty
  have alone := structural _ rfl failed
  exact ⟨failed, alone, remains _ alone⟩

end RuleNode

end AccessRules
