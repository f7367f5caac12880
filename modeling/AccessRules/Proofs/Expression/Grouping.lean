import AccessRules.Element

namespace AccessRules

/-- The chains that hold the elements of a sequence in order, with any stretches of it in
chains of their own. A stretch of no elements puts an empty chain in. -/
inductive Grouped : List Element → Chain → Prop where
  | nil : Grouped [] []
  | single (element : Element) {rest : List Element} {chain : Chain}
      (behind : Grouped rest chain) : Grouped (element :: rest) (element :: chain)
  | group {stretch rest : List Element} {inner chain : Chain}
      (inside : Grouped stretch inner) (behind : Grouped rest chain) :
      Grouped (stretch ++ rest) (.chain inner :: chain)

namespace Grouped

theorem flatten_eq {elements : List Element} {chain : Chain} (grouped : Grouped elements chain) :
    chain.flatten = Element.flattenAll elements := by
  induction grouped with
  | nil => rfl
  | single element behind ih => simpa [Chain.flatten, Element.flattenAll] using ih
  | group inside behind insideIH behindIH =>
      rw [Element.flattenAll_append, ← insideIH, ← behindIH]
      rfl

theorem append {front back : List Element} {left right : Chain} (first : Grouped front left)
    (second : Grouped back right) : Grouped (front ++ back) (left ++ right) := by
  induction first with
  | nil => exact second
  | single element behind ih => exact ih.single element
  | group inside behind _ ih =>
      rw [List.append_assoc]
      exact .group inside ih

end Grouped

namespace Element

mutual

theorem grouped_flatten (element : Element) :
    Grouped (element.flatten.map .atom) [element] := by
  cases element with
  | atom leaf => exact Grouped.nil.single _
  | chain elements => simpa [flatten] using Grouped.group (grouped_flattenAll elements) .nil

theorem grouped_flattenAll (elements : List Element) :
    Grouped ((flattenAll elements).map .atom) elements := by
  cases elements with
  | nil => exact .nil
  | cons element rest =>
      have joined := (grouped_flatten element).append (grouped_flattenAll rest)
      simpa [flattenAll] using joined

end

/-- Atoms hold no chain, so flattening them again changes nothing. -/
theorem flattenAll_map_atom (atoms : List Atom) : flattenAll (atoms.map .atom) = atoms := by
  induction atoms with
  | nil => rfl
  | cons leaf rest ih => simp [flattenAll, flatten, ih]

end Element

namespace Chain

/-- Every chain is a grouping of its own atoms, so equal atoms mean a common sequence. -/
theorem flatten_eq_iff_grouped {left right : Chain} :
    left.flatten = right.flatten ↔
      ∃ elements, Grouped elements left ∧ Grouped elements right := by
  constructor
  · intro same
    have first : Grouped (left.flatten.map .atom) left := Element.grouped_flattenAll left
    have second : Grouped (right.flatten.map .atom) right := Element.grouped_flattenAll right
    exact ⟨_, first, same ▸ second⟩
  · rintro ⟨elements, first, second⟩
    exact first.flatten_eq.trans second.flatten_eq.symm

/-- The two ways in which an element is added to a chain. -/
inductive Join where
  | extend
  | branch

def join (chain : Chain) : Join → Element → Chain
  | .extend, element => chain.extend element
  | .branch, element => chain.branch element

/-- The chain after elements are added one after the other, each in its own way. -/
def grow (chain : Chain) (steps : List (Join × Element)) : Chain :=
  steps.foldl (fun grown step => grown.join step.1 step.2) chain

theorem flatten_join (chain : Chain) (way : Join) (element : Element) :
    (chain.join way element).flatten = chain.flatten ++ element.flatten := by
  cases way with
  | extend => exact chain.flatten_extend element
  | branch => exact chain.flatten_branch element

theorem flatten_grow (chain : Chain) (steps : List (Join × Element)) :
    (chain.grow steps).flatten = chain.flatten ++ Element.flattenAll (steps.map Prod.snd) := by
  induction steps generalizing chain with
  | nil => simp [grow, Element.flattenAll]
  | cons step rest ih =>
      have later := ih (chain.join step.1 step.2)
      rw [flatten_join, List.append_assoc] at later
      exact later

/-- What can be asked of a chain without looking into its groups. -/
structure Alike (left right : Chain) : Prop where
  flatten : left.flatten = right.flatten
  isBlank : left.isBlank = right.isBlank
  text : left.text = right.text

theorem alike_of_flatten_eq {left right : Chain} (same : left.flatten = right.flatten) :
    left.Alike right :=
  ⟨same, by rw [isBlank, isBlank, same], by rw [text, text, same]⟩

/-- Two chains group one sequence exactly if they have the same atoms, among which there is
no chain. They are empty together and come to one text. In a chain that grows, each element
may be added in either way. -/
theorem grouping_never_shows :
    (∀ left right : Chain,
      (∃ elements, Grouped elements left ∧ Grouped elements right) ↔ left.Alike right) ∧
    (∀ chain : Chain, Chain.flatten (chain.flatten.map .atom) = chain.flatten) ∧
    ∀ (chain : Chain) (steps others : List (Join × Element)),
      steps.map Prod.snd = others.map Prod.snd → (chain.grow steps).Alike (chain.grow others) := by
  refine ⟨?_, fun chain => Element.flattenAll_map_atom chain.flatten, ?_⟩
  · intro left right
    rw [← flatten_eq_iff_grouped]
    exact ⟨alike_of_flatten_eq, Alike.flatten⟩
  · intro chain steps others same
    apply alike_of_flatten_eq
    rw [flatten_grow, flatten_grow, same]

/-- `a.b` with an empty chain between its members and a group around the second, and the
same members added to an empty chain in different ways. -/
theorem grouping_never_shows_between_members :
    let a := Element.member "a"
    let b := Element.member "b"
    Grouped [a, b] [a, .chain [.chain []], .chain [b]] ∧ Grouped [a, b] [a, b] ∧
      Chain.Alike [a, .chain [.chain []], .chain [b]] [a, b] ∧
      (Chain.grow [] [(.branch, a), (.extend, b)]).Alike
        (Chain.grow [] [(.extend, a), (.branch, b)]) := by
  intro a b
  obtain ⟨grouping, _, growing⟩ := grouping_never_shows
  have hollow : Grouped [] [.chain []] := .group .nil .nil
  have nested : Grouped [a, b] [a, .chain [.chain []], .chain [b]] :=
    .single a (.group hollow (.group (.single b .nil) .nil))
  have plain : Grouped [a, b] [a, b] := .single a (.single b .nil)
  exact ⟨nested, plain, (grouping _ _).mp ⟨_, nested, plain⟩, growing _ _ _ rfl⟩

end Chain

end AccessRules
