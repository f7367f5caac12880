import AccessRules.Proofs.Rules.Places
import AccessRules.Proofs.Rules.Siblings
import Mathlib.Data.List.Induction

namespace AccessRules

namespace Entries

variable {α : Type u}

theorem find?_insert (entries : Entries α) (key name : String) (value : α) :
    (entries.insert key value).find? name =
      if name = key then some value else entries.find? name := by
  induction entries with
  | nil => exact find?_cons key value [] name
  | cons entry rest ih =>
      obtain ⟨first, old⟩ := entry
      by_cases here : first = key
      · subst here
        rw [insert, if_pos rfl, find?_cons, find?_cons]
        by_cases asked : name = first
        · rw [if_pos asked, if_pos asked]
        · rw [if_neg asked, if_neg asked, if_neg asked]
      · rw [insert, if_neg here, find?_cons, find?_cons, ih]
        by_cases asked : name = first
        · rw [if_pos asked, if_pos asked, if_neg (asked ▸ here)]
        · rw [if_neg asked, if_neg asked]

theorem ofPairs_concat (pairs : List (String × α)) (key : String) (value : α) :
    ofPairs (pairs ++ [(key, value)]) = (ofPairs pairs).insert key value := by
  rw [ofPairs, List.foldl_append]
  rfl

/-- Each name stands where it first appears. -/
theorem keys_ofPairs (pairs : List (String × α)) :
    (ofPairs pairs).keys = (keys pairs).eraseDups := by
  induction pairs using List.reverseRecOn with
  | nil => rfl
  | append_singleton pairs pair ih =>
      obtain ⟨key, value⟩ := pair
      have names : keys (pairs ++ [(key, value)]) = keys pairs ++ [key] := List.map_append
      have single : [key].eraseDups = [key] := rfl
      rw [ofPairs_concat, keys_insert, ih, names, List.eraseDups_append]
      by_cases there : key ∈ keys pairs <;> simp [there, List.removeAll, single]

theorem find?_ofPairs (pairs : List (String × α)) (key : String) :
    (ofPairs pairs).find? key = find? pairs.reverse key := by
  induction pairs using List.reverseRecOn with
  | nil => rfl
  | append_singleton pairs pair ih =>
      obtain ⟨name, value⟩ := pair
      rw [ofPairs_concat, find?_insert, ih, List.reverse_append, List.reverse_singleton,
        List.singleton_append, find?_cons]

/-- The values found under names, for those that are there. -/
def table (names : List String) (found : String → Option α) : Entries α :=
  names.filterMap fun name => (found name).map (name, ·)

/-- Entries with distinct names are told by their names and by what is found under them. -/
theorem table_keys {entries : Entries α} (distinct : entries.keys.Nodup) :
    table entries.keys (find? entries) = entries := by
  induction entries with
  | nil => rfl
  | cons entry rest ih =>
      obtain ⟨first, value⟩ := entry
      obtain ⟨absent, distinct⟩ := List.nodup_cons.mp distinct
      have here : find? ((first, value) :: rest) first = some value := by
        rw [find?_cons, if_pos rfl]
      have elsewhere : table (keys rest) (find? ((first, value) :: rest)) = rest := by
        refine Eq.trans (List.filterMap_congr fun name member => ?_) (ih distinct)
        have other : name ≠ first := fun same => absent (same ▸ member)
        rw [find?_cons, if_neg other]
      rw [table, keys, List.map_cons, List.filterMap_cons, here]
      exact congrArg ((first, value) :: ·) elsewhere

/-- The last value of each name, in the order in which the names first appear. -/
def lastOf (pairs : List (String × α)) : Entries α :=
  table (keys pairs).eraseDups (find? pairs.reverse)

theorem ofPairs_eq_lastOf (pairs : List (String × α)) : ofPairs pairs = lastOf pairs := by
  have found : find? (ofPairs pairs) = find? pairs.reverse := funext (find?_ofPairs pairs)
  rw [lastOf, ← keys_ofPairs, ← found, table_keys (ofPairs_nodup pairs)]

theorem find?_reverse_around (before after : List (String × α)) (key name : String) (value : α) :
    find? (before ++ (key, value) :: after).reverse name =
      (find? after.reverse name).or
        (if name = key then some value else find? before.reverse name) := by
  rw [List.reverse_append, List.reverse_cons, List.append_assoc, List.singleton_append,
    ← find?_cons]
  exact List.lookup_append

/-- A value that is overwritten may be any other. -/
theorem ofPairs_overwritten {key : String} {after : List (String × α)} (again : key ∈ keys after)
    (before : List (String × α)) (value other : α) :
    ofPairs (before ++ (key, value) :: after) = ofPairs (before ++ (key, other) :: after) := by
  obtain ⟨⟨name, last⟩, member, rfl⟩ := List.mem_map.mp again
  have later : (find? after.reverse name).isSome :=
    List.lookup_isSome_iff.mpr ⟨_, List.mem_reverse.mpr member, beq_self_eq_true name⟩
  have names : keys (before ++ (name, value) :: after) =
      keys (before ++ (name, other) :: after) := by
    simp [keys]
  have found : find? (before ++ (name, value) :: after).reverse =
      find? (before ++ (name, other) :: after).reverse := by
    funext asked
    rw [find?_reverse_around, find?_reverse_around]
    by_cases here : asked = name
    · obtain ⟨kept, same⟩ := Option.isSome_iff_exists.mp later
      rw [here, same]
      rfl
    · rw [if_neg here, if_neg here]
  rw [ofPairs_eq_lastOf, ofPairs_eq_lastOf, lastOf, lastOf, names, found]

theorem insert_of_not_mem {entries : Entries α} {key : String} (absent : key ∉ entries.keys)
    (value : α) : entries.insert key value = entries ++ [(key, value)] := by
  induction entries with
  | nil => rfl
  | cons entry rest induction =>
      simp only [keys, List.map_cons, List.mem_cons, not_or] at absent
      rw [insert, if_neg (Ne.symm absent.1), induction absent.2, List.cons_append]

theorem ofPairs_of_nodup {pairs : List (String × α)} (distinct : (keys pairs).Nodup) :
    ofPairs pairs = pairs := by
  induction pairs using List.reverseRecOn with
  | nil => rfl
  | append_singleton pairs pair ih =>
      obtain ⟨key, value⟩ := pair
      have names : keys (pairs ++ [(key, value)]) = keys pairs ++ [key] := List.map_append
      rw [names] at distinct
      have absent : key ∉ keys pairs := fun member =>
        List.disjoint_of_nodup_append distinct member (List.mem_singleton.mpr rfl)
      rw [ofPairs_concat, ih distinct.of_append_left, insert_of_not_mem absent]

theorem find?_behind {before : List (String × α)} {key : String} (absent : key ∉ keys before)
    (value : α) (after : List (String × α)) :
    find? (before ++ (key, value) :: after) key = some value := by
  have nowhere : find? before key = none := by
    refine List.lookup_eq_none_iff.mpr fun entry member => ?_
    have differs : key ≠ entry.1 := fun same => absent (same ▸ List.mem_map_of_mem member)
    simpa using differs
  have parts : find? (before ++ (key, value) :: after) key =
      (find? before key).or (find? ((key, value) :: after) key) := List.lookup_append
  rw [parts, nowhere, find?_cons, if_pos rfl]
  rfl

end Entries

namespace RuleNode

theorem document_map (entries : List (String × RuleNode)) :
    (RuleNode.map entries).resolved.document =
      .object (entries.map fun entry => (entry.1, entry.2.resolved.document)) := by
  simp only [resolved, Resolved.document, resolvedEntries_eq_map,
    Resolved.documentEntries_eq_map, List.map_map, Function.comp_def]

theorem rules?_map (entries : List (String × RuleNode)) :
    (RuleNode.map entries).resolved.rules? =
      (Entries.find? entries Location.topKey).map resolved := by
  rw [resolved, Resolved.rules?, resolvedEntries_eq_map]
  exact Entries.find?_map resolved entries Location.topKey

/-- The translation of a collected map. Building its object by insertion changes nothing. -/
theorem document_ofPairs (pairs : List (String × RuleNode)) :
    ∃ members, (ofPairs pairs).resolved.document = .object members ∧
      Entries.keys members = (Entries.keys pairs).eraseDups ∧
      (Entries.keys members).Nodup ∧ Entries.ofPairs members = members ∧
      ∀ key, Entries.find? members key =
        (Entries.find? pairs.reverse key).map fun node => node.resolved.document := by
  have names := Entries.keys_map_named (fun _ (node : RuleNode) => node.resolved.document)
    (Entries.ofPairs pairs)
  have distinct := names ▸ Entries.ofPairs_nodup pairs
  refine ⟨_, document_map _, names.trans (Entries.keys_ofPairs pairs), distinct,
    Entries.ofPairs_of_nodup distinct, fun key => ?_⟩
  rw [← Entries.find?_ofPairs]
  exact Entries.find?_map (fun node : RuleNode => node.resolved.document) _ key

namespace Place

def keys : Place → List String
  | .here => []
  | .under _ key inside _ => key :: inside.keys
  | .behind _ inside => inside.keys

/-- Whether the place stands under the top-level key, where a compilation looks for it. -/
def InRules : Place → Prop
  | .here => False
  | .under before key _ _ => key = Location.topKey ∧ key ∉ Entries.keys before
  | .behind _ inside => inside.InRules

theorem document_leadsTo (place : Place) (node : RuleNode) :
    (place.fill node).resolved.document.LeadsTo place.keys node.resolved.document := by
  induction place with
  | here => rfl
  | under before key inside after ih =>
      have whole : (fill node (.under before key inside after)).resolved.document =
          .object ((before ++ (key, inside.fill node) :: after).map fun entry =>
            (entry.1, entry.2.resolved.document)) := document_map _
      have member : (key, inside.fill node) ∈ before ++ (key, inside.fill node) :: after := by simp
      rw [whole]
      exact ⟨_, List.mem_map_of_mem member, ih⟩
  | behind messages inside ih => exact ih

theorem rules?_fill {place : Place} (compiled : place.InRules) :
    ∃ inside : Place, place.keys = Location.topKey :: inside.keys ∧
      ∀ node, (place.fill node).resolved.rules? = some (inside.fill node).resolved := by
  induction place with
  | here => contradiction
  | under before key inside after ih =>
      obtain ⟨rfl, absent⟩ := compiled
      refine ⟨inside, rfl, fun node => ?_⟩
      rw [fill, rules?_map, Entries.find?_behind absent]
      rfl
  | behind messages inside ih => exact ih compiled

theorem resolved_fill {place : Place} (atRoot : place.keys = []) (node : RuleNode) :
    (place.fill node).resolved = node.resolved := by
  induction place with
  | here => rfl
  | under before key inside after ih => contradiction
  | behind messages inside ih => exact ih atRoot

end Place

/-- A map collected from pairs compiles at its place to an object that has each key once,
where the key first appears, with the last node that was paired with it. Under the
top-level key of a collected root that node makes the rules. Of the nodes that were
overwritten a compilation shows nothing, whether it succeeds or fails: it is that of a map
without them, and they may be any others. -/
theorem compile_collected (strictness : Strictness) (place : Place)
    (pairs : List (String × RuleNode)) :
    (place.fill (ofPairs pairs)).compile strictness =
      (place.fill (.map (Entries.lastOf pairs))).compile strictness ∧
    (∀ before key node after, pairs = before ++ (key, node) :: after →
      key ∈ Entries.keys after → ∀ other,
        (place.fill (ofPairs pairs)).compile strictness =
          (place.fill (ofPairs (before ++ (key, other) :: after))).compile strictness) ∧
    ∀ document, ((place.fill (ofPairs pairs)).compile strictness).result = .ok document →
      (place.InRules → ∃ members, document.LeadsTo place.keys (.object members) ∧
        Entries.keys members = (Entries.keys pairs).eraseDups ∧
        (Entries.keys members).Nodup ∧ Entries.ofPairs members = members ∧
        ∀ key, Entries.find? members key =
          (Entries.find? pairs.reverse key).map fun node => node.resolved.document) ∧
      (place.keys = [] → ∃ rules, Entries.find? pairs.reverse Location.topKey = some rules ∧
        document = .object [(Location.topKey, rules.resolved.document)]) := by
  refine ⟨?_, ?_, ?_⟩
  · rw [ofPairs, Entries.ofPairs_eq_lastOf]
  · rintro before key node after rfl again other
    rw [ofPairs, ofPairs, Entries.ofPairs_overwritten again]
  · intro document compiled
    obtain ⟨rules, found, _, rfl⟩ := (compile_eq_ok_iff _ _ _).mp compiled
    refine ⟨?_, ?_⟩
    · intro inRules
      obtain ⟨inside, keys, filled⟩ := Place.rules?_fill inRules
      obtain rfl := Option.some.inj ((filled (ofPairs pairs)).symm.trans found)
      obtain ⟨members, whole, table⟩ := document_ofPairs pairs
      have leads := inside.document_leadsTo (ofPairs pairs)
      rw [whole] at leads
      rw [keys]
      exact ⟨members, ⟨_, List.mem_singleton.mpr rfl, leads⟩, table⟩
    · intro atRoot
      rw [Place.resolved_fill atRoot, ofPairs, rules?_map, Entries.find?_ofPairs] at found
      obtain ⟨node, last, rfl⟩ := Option.map_eq_some_iff.mp found
      exact ⟨node, last, rfl⟩

/-- A permission that stands for itself and for a list made in its place before. -/
def repeated : List (String × RuleNode) :=
  [(Key.read, .deferred [.notPattern "bad"] (.list [])), ("name", .value .null),
    (Key.read, .value (.boolean true))]

def belowUsers : Place := .under [] Location.topKey (.behind [] (.under [] "users" .here [])) []

theorem compile_collected_repeated :
    (∀ other, (belowUsers.fill (ofPairs repeated)).compile .strict =
      (belowUsers.fill (ofPairs ((Key.read, other) :: repeated.tail))).compile .strict) ∧
    (∃ document members,
      ((belowUsers.fill (ofPairs repeated)).compile .strict).result = .ok document ∧
      document.LeadsTo [Location.topKey, "users"] (.object members) ∧
      Entries.keys members = [Key.read, "name"] ∧
      Entries.find? members Key.read = some (.boolean true)) ∧
    ∃ rules : RuleNode, Entries.find? [(Location.topKey, .map []), (Location.topKey, .list [])]
        Location.topKey = some rules ∧
      Json.object [(Location.topKey, .object [])] =
        .object [(Location.topKey, rules.resolved.document)] := by
  refine ⟨?_, ?_, ?_⟩
  · intro other
    exact (compile_collected .strict belowUsers repeated).2.1 [] Key.read _ _ rfl (by decide) other
  · have compiled : ((belowUsers.fill (ofPairs repeated)).compile .strict).result =
        .ok (.object [(Location.topKey, .object [("users",
          .object [(Key.read, .boolean true), ("name", .null)])])]) := by
      rw [compile_eq_outline]
      rfl
    obtain ⟨below, _⟩ := (compile_collected .strict belowUsers repeated).2.2 _ compiled
    obtain ⟨members, leads, names, _, _, found⟩ := below ⟨rfl, List.not_mem_nil⟩
    exact ⟨_, members, compiled, leads, names.trans (by decide), (found Key.read).trans (by rfl)⟩
  · have compiled : ((Place.here.fill (ofPairs [(Location.topKey, .list []),
        (Location.topKey, .map [])])).compile .strict).result =
          .ok (.object [(Location.topKey, .object [])]) := by
      rw [compile_eq_outline]
      rfl
    exact ((compile_collected .strict .here _).2.2 _ compiled).2 rfl

end RuleNode

end AccessRules
