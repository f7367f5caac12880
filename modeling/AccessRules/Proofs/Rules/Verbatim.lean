import AccessRules.Proofs.Rules.Projection

namespace AccessRules

theorem Entries.forall_mem_cons_iff {α : Type u} {holds : String → α → Prop} (key : String)
    (value : α) (rest : Entries α) :
    (∀ name other, (name, other) ∈ (key, value) :: rest → holds name other) ↔
      holds key value ∧ ∀ name other, (name, other) ∈ rest → holds name other := by
  constructor
  · intro all
    exact ⟨all key value List.mem_cons_self,
      fun name other member => all name other (List.mem_cons_of_mem _ member)⟩
  · rintro ⟨here, later⟩ name other member
    rcases List.mem_cons.mp member with same | member
    · obtain ⟨rfl, rfl⟩ := Prod.mk.inj same
      exact here
    · exact later name other member

namespace Json

def isArray : Json → Bool
  | .array _ => true
  | _ => false

def member? (key : String) : Json → Option Json
  | .object members => Entries.find? members key
  | _ => none

/-- Whether the keys, taken one after the other, lead to a node. No key leads into an array. -/
def LeadsTo : List String → Json → Json → Prop
  | [], json, node => json = node
  | key :: keys, .object members, node => ∃ child, (key, child) ∈ members ∧ child.LeadsTo keys node
  | _ :: _, _, _ => False

/-- Every array stands under an index key, and under every index key stands an array. -/
def ListsInPlace (json : Json) : Prop :=
  ∀ keys node, json.LeadsTo keys node →
    (node.isArray = true ↔ keys.getLast? = some Key.indexOn)

theorem ne_object_of_isArray {json : Json} (array : json.isArray = true) :
    ∀ members, json ≠ .object members := by
  rintro members rfl
  contradiction

theorem ne_object_of_isScalar {json : Json} (scalar : json.isScalar = true) :
    ∀ members, json ≠ .object members := by
  rintro members rfl
  contradiction

theorem eq_of_leadsTo {json node : Json} {keys : List String}
    (leaf : ∀ members, json ≠ .object members) (leads : json.LeadsTo keys node) :
    keys = [] ∧ json = node := by
  cases keys with
  | nil => exact ⟨rfl, leads⟩
  | cons key keys =>
      cases json with
      | object members => exact absurd rfl (leaf members)
      | _ => contradiction

theorem listsInPlace_of_isScalar {json : Json} (scalar : json.isScalar = true) :
    json.ListsInPlace := by
  intro keys node leads
  obtain ⟨rfl, rfl⟩ := eq_of_leadsTo (ne_object_of_isScalar scalar) leads
  cases json <;> simp_all [isArray, isScalar]

theorem not_listsInPlace_array (items : List Json) : ¬ (array items).ListsInPlace := by
  intro placed
  have listed := (placed [] (.array items) rfl).mp rfl
  contradiction

theorem getLast?_cons_eq_indexOn_iff {key : String} (other : key ≠ Key.indexOn)
    (keys : List String) :
    (key :: keys).getLast? = some Key.indexOn ↔ keys.getLast? = some Key.indexOn := by
  cases keys with
  | nil => simp [other]
  | cons next keys => rw [List.getLast?_cons_cons]

/-- A child is looked at together with its own key, since that key alone tells whether
the child may be an array. -/
theorem listsInPlace_object_iff (members : List (String × Json)) :
    (object members).ListsInPlace ↔
      ∀ key child, (key, child) ∈ members →
        if key = Key.indexOn then child.isArray = true else child.ListsInPlace := by
  constructor
  · intro placed key child member
    have below (keys : List String) (node : Json) (leads : child.LeadsTo keys node) :
        node.isArray = true ↔ (key :: keys).getLast? = some Key.indexOn :=
      placed (key :: keys) node ⟨child, member, leads⟩
    by_cases index : key = Key.indexOn
    · rw [if_pos index]
      exact (below [] child rfl).mpr (by simp [index])
    · rw [if_neg index]
      intro keys node leads
      rw [below keys node leads, getLast?_cons_eq_indexOn_iff index]
  · intro placed keys node leads
    cases keys with
    | nil =>
        obtain rfl := leads
        simp [isArray]
    | cons key keys =>
        obtain ⟨child, member, leads⟩ := leads
        have below := placed key child member
        by_cases index : key = Key.indexOn
        · rw [if_pos index] at below
          obtain ⟨rfl, rfl⟩ := eq_of_leadsTo (ne_object_of_isArray below) leads
          simp [index, below]
        · rw [if_neg index] at below
          rw [below keys node leads, getLast?_cons_eq_indexOn_iff index]

theorem isList_resolved (json : Json) : json.resolved.isList = json.isArray := by
  cases json <;> rfl

theorem resolvedMembers_eq_map (members : List (String × Json)) :
    resolvedMembers members = members.map fun member => (member.1, member.2.resolved) := by
  induction members with
  | nil => rfl
  | cons member rest ih => simp [resolvedMembers, ih]

theorem rules?_resolved (json : Json) :
    json.resolved.rules? = (json.member? Location.topKey).map resolved := by
  cases json with
  | object members =>
      simp only [resolved, Resolved.rules?, member?, resolvedMembers_eq_map, Entries.find?_map]
  | _ => rfl

mutual

theorem listsPlaced_resolved_iff (json : Json) :
    json.resolved.ListsPlaced ↔ json.ListsInPlace := by
  cases json with
  | object members =>
      rw [listsInPlace_object_iff]
      exact entriesPlaced_resolvedMembers_iff members
  | array items =>
      have refused := not_listsInPlace_array items
      exact ⟨False.elim, refused⟩
  | _ => exact iff_of_true trivial (listsInPlace_of_isScalar rfl)

theorem entriesPlaced_resolvedMembers_iff (members : List (String × Json)) :
    Resolved.EntriesPlaced (resolvedMembers members) ↔
      ∀ key child, (key, child) ∈ members →
        if key = Key.indexOn then child.isArray = true else child.ListsInPlace := by
  cases members with
  | nil => simp [resolvedMembers, Resolved.EntriesPlaced]
  | cons member rest =>
      obtain ⟨key, child⟩ := member
      have first := listsPlaced_resolved_iff child
      have later := entriesPlaced_resolvedMembers_iff rest
      rw [Entries.forall_mem_cons_iff]
      simp only [resolvedMembers, Resolved.EntriesPlaced, isList_resolved, first, later]

end

mutual

theorem document_resolved (json : Json) : json.resolved.document = json := by
  cases json with
  | object members => simp only [resolved, Resolved.document, documentEntries_resolvedMembers members]
  | _ => rfl

theorem documentEntries_resolvedMembers (members : List (String × Json)) :
    Resolved.documentEntries (resolvedMembers members) = members := by
  cases members with
  | nil => rfl
  | cons member rest =>
      obtain ⟨key, value⟩ := member
      simp only [resolvedMembers, Resolved.documentEntries, document_resolved value,
        documentEntries_resolvedMembers rest]

end

/-- A document holds no expression, so rendering leaves it as it is. -/
theorem rendered_resolved (json : Json) : json.resolved.rendered = json.resolved := by
  have again := json.resolved.resolved_document json.opened_resolved
  rw [document_resolved] at again
  exact again.symm

theorem expressions_tally_resolved (depth : Nat) (json : Json) :
    (json.resolved.tally depth).expressions = 0 := by
  have settled := Resolved.tally_rendered depth json.resolved
  rw [rendered_resolved] at settled
  rw [settled]
  rfl

theorem rootDeferrals_outline (objectForm arrayForm : NodeForm) (json : Json) :
    (json.outline objectForm arrayForm).rootDeferrals = 0 := by
  cases json with
  | object members =>
      simp only [outline, Outline.rootDeferrals, outlineMembers_eq_map, Entries.find?_map]
      cases Entries.find? members Location.topKey with
      | none => rfl
      | some rules => exact deferrals_outline .map .list rules
  | _ => rfl

end Json

theorem Key.offence?_lenient (key : String) (location : Location) :
    Key.offence? .lenient key location = none := by
  simp [Key.offence?, Strictness.lenient]

namespace Resolved

mutual

theorem offences_lenient_eq_nil (location : Location) (node : Resolved)
    (placed : node.ListsPlaced) : node.offences .lenient location = [] := by
  cases node with
  | map entries => exact entryOffences_lenient_eq_nil location entries placed
  | list items => exact absurd placed id
  | scalar json => rfl
  | expression element => rfl

theorem entryOffences_lenient_eq_nil (location : Location) (entries : List (String × Resolved))
    (placed : EntriesPlaced entries) : entryOffences .lenient location entries = [] := by
  cases entries with
  | nil => rfl
  | cons entry rest =>
      obtain ⟨key, child⟩ := entry
      obtain ⟨here, later⟩ := placed
      have clean : child.offencesUnder .lenient key (location.child key) = [] := by
        rw [offencesUnder_eq_nil_iff]
        refine ⟨Key.offence?_lenient _ _, ?_⟩
        by_cases index : key = Key.indexOn
        · simpa only [if_pos index] using here
        · rw [if_neg index] at here ⊢
          have unasked : child.permissionOffences .lenient key (location.child key) = [] := by
            simp [permissionOffences, Strictness.lenient]
          exact ⟨offences_lenient_eq_nil (location.child key) child here, unasked⟩
      rw [entryOffences_cons, clean, entryOffences_lenient_eq_nil location rest later]
      rfl

end

end Resolved

namespace RuleNode

theorem rules?_ofJson (json : Json) :
    (ofJson json).resolved.rules? = (json.member? Location.topKey).map Json.resolved := by
  rw [resolved_ofJson, Json.rules?_resolved]

/-- A document whose lists are in their places is accepted unless a check refuses it,
and what is accepted is handed back: nothing in it is rendered, made or moved. -/
theorem compile_ofJson_keeps_rules (json : Json) :
    ((∃ document, ((ofJson json).compile .lenient).result = .ok document) ↔
      ∃ rules, json.member? Location.topKey = some rules ∧ rules.ListsInPlace) ∧
    ∀ strictness document counts,
      ((ofJson json).compile strictness).counted = .ok (document, counts) →
        (∃ rules, json.member? Location.topKey = some rules ∧
          document = .object [(Location.topKey, rules)]) ∧
        counts.expressions = 0 ∧ counts.deferred = 0 := by
  refine ⟨?_, ?_⟩
  · constructor
    · rintro ⟨document, compiled⟩
      obtain ⟨resolved, found, clean, _⟩ := (compile_eq_ok_iff _ _ _).mp compiled
      rw [rules?_ofJson] at found
      obtain ⟨rules, member, rfl⟩ := Option.map_eq_some_iff.mp found
      have placed := rules.resolved.listsPlaced_of_offences_eq_nil clean
      exact ⟨rules, member, rules.listsPlaced_resolved_iff.mp placed⟩
    · rintro ⟨rules, member, placed⟩
      have found : (ofJson json).resolved.rules? = some rules.resolved := by
        rw [rules?_ofJson, member]
        rfl
      have clean : rules.resolved.offences .lenient .top = [] :=
        Resolved.offences_lenient_eq_nil _ _ (rules.listsPlaced_resolved_iff.mpr placed)
      exact ⟨_, (compile_eq_ok_iff _ _ _).mpr ⟨rules.resolved, found, clean, rfl⟩⟩
  · intro strictness document counts finished
    obtain ⟨compiled, counted⟩ := Run.counted_eq_ok_iff.mp finished
    obtain ⟨resolved, found, clean, rfl⟩ := (compile_eq_ok_iff _ _ _).mp compiled
    have sums := compile_tally strictness (ofJson json) found clean
    rw [rules?_ofJson] at found
    obtain ⟨rules, member, rfl⟩ := Option.map_eq_some_iff.mp found
    rw [outline_ofJson, Json.rootDeferrals_outline, counted] at sums
    refine ⟨⟨rules, member, by rw [rules.document_resolved]⟩, ?_, ?_⟩
    · rw [sums]
      exact rules.expressions_tally_resolved 0
    · rw [sums]
      rfl

theorem compile_ofJson_keeps_nested_rules :
    ((ofJson nestedDocument).compile .strict).counted =
      .ok (nestedDocument, ⟨3, 0, 0, 1, 2, 2⟩) ∧
    ∃ rules, nestedDocument.member? Location.topKey = some rules ∧
      nestedDocument = .object [(Location.topKey, rules)] := by
  have finished : ((ofJson nestedDocument).compile .strict).counted =
      .ok (nestedDocument, ⟨3, 0, 0, 1, 2, 2⟩) := by
    rw [compile_eq_outline]
    rfl
  exact ⟨finished, ((compile_ofJson_keeps_rules nestedDocument).2 _ _ _ finished).1⟩

end RuleNode

end AccessRules
