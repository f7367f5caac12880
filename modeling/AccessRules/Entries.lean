namespace AccessRules

/-- Named values in the order in which their names first appeared. -/
abbrev Entries (α : Type u) := List (String × α)

namespace Entries

variable {α : Type u}

def keys (entries : Entries α) : List String := entries.map Prod.fst

def find? (entries : Entries α) (key : String) : Option α := entries.lookup key

/-- Puts a value under a key. A key that is there already keeps its place. -/
def insert : Entries α → String → α → Entries α
  | [], key, value => [(key, value)]
  | (first, old) :: rest, key, value =>
      if first = key then (first, value) :: rest else (first, old) :: insert rest key value

/-- Puts pairs in one after the other, so the last value of a key stands at the
place of its first. -/
def ofPairs (pairs : List (String × α)) : Entries α :=
  pairs.foldl (fun entries (key, value) => entries.insert key value) []

theorem find?_cons (name : String) (value : α) (rest : Entries α) (key : String) :
    find? ((name, value) :: rest) key = if key = name then some value else rest.find? key := by
  rw [find?, List.lookup_cons]
  by_cases here : key = name
  · simp [here]
  · have other : (key == name) = false := by simpa using here
    rw [other, if_neg here]
    rfl

/-- A conversion may depend on the name under which a value stands. -/
theorem find?_map_named {β : Type v} (convert : String → α → β)
    (entries : Entries α) (key : String) :
    Entries.find? (entries.map fun entry => (entry.1, convert entry.1 entry.2)) key =
      (entries.find? key).map (convert key) := by
  induction entries with
  | nil => rfl
  | cons entry rest ih =>
      obtain ⟨name, value⟩ := entry
      rw [List.map_cons, find?_cons, find?_cons, ih]
      by_cases here : key = name
      · rw [if_pos here, if_pos here, here]
        rfl
      · rw [if_neg here, if_neg here]

theorem find?_map {β : Type v} (convert : α → β) (entries : Entries α)
    (key : String) :
    Entries.find? (entries.map fun entry => (entry.1, convert entry.2)) key =
      (Entries.find? entries key).map convert :=
  find?_map_named (fun _ => convert) entries key

theorem keys_insert (entries : Entries α) (key : String) (value : α) :
    (entries.insert key value).keys =
      if key ∈ entries.keys then entries.keys else entries.keys ++ [key] := by
  induction entries with
  | nil => rfl
  | cons entry rest ih =>
      obtain ⟨first, old⟩ := entry
      simp only [keys] at ih
      by_cases here : first = key
      · simp [insert, keys, here]
      · by_cases later : key ∈ List.map Prod.fst rest <;>
          simp [insert, keys, here, ih, later, Ne.symm here]

theorem insert_nodup {entries : Entries α} (distinct : entries.keys.Nodup) (key : String)
    (value : α) : (entries.insert key value).keys.Nodup := by
  rw [keys_insert]
  split
  · exact distinct
  · rename_i absent
    refine List.nodup_append.mpr ⟨distinct, by simp, ?_⟩
    intro left leftMember right rightMember same
    simp only [List.mem_singleton] at rightMember
    exact absent (rightMember ▸ same ▸ leftMember)

theorem ofPairs_nodup (pairs : List (String × α)) : (ofPairs pairs).keys.Nodup := by
  suffices general : ∀ entries : Entries α, entries.keys.Nodup →
      (pairs.foldl (fun entries (key, value) => entries.insert key value) entries).keys.Nodup from
    general [] (by simp [keys])
  induction pairs with
  | nil => intro entries distinct; exact distinct
  | cons pair rest ih => intro entries distinct; exact ih _ (insert_nodup distinct _ _)

end Entries

end AccessRules
