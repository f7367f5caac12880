import AccessRules.Proofs.Expression.Pushing

namespace AccessRules

namespace Element

/-- A chain that holds nothing, or nothing but such chains. -/
inductive Hollow : Element → Prop where
  | chain {elements : List Element} (inside : ∀ element ∈ elements, Hollow element) :
      Hollow (.chain elements)

mutual

theorem hollow_iff_flatten_eq_nil (element : Element) :
    element.Hollow ↔ element.flatten = [] := by
  cases element with
  | atom leaf =>
      constructor
      · intro hollow
        cases hollow
      · intro none
        simp [flatten] at none
  | chain elements =>
      rw [flatten, ← forall_hollow_iff_flattenAll_eq_nil elements]
      constructor
      · intro hollow
        cases hollow with
        | chain inside => exact inside
      · exact Hollow.chain

theorem forall_hollow_iff_flattenAll_eq_nil (elements : List Element) :
    (∀ element ∈ elements, element.Hollow) ↔ flattenAll elements = [] := by
  cases elements with
  | nil => simp [flattenAll]
  | cons element rest =>
      rw [List.forall_mem_cons, flattenAll, List.append_eq_nil_iff,
        hollow_iff_flatten_eq_nil element, forall_hollow_iff_flattenAll_eq_nil rest]

end

end Element

namespace Chain

/-- Both chains hold atoms, and the last one of the first and the first one of the second
are members. -/
def Meets (left right : Chain) : Prop :=
  ∃ front last first back,
    left.flatten = front ++ [.member last] ∧ right.flatten = .member first :: back

variable {left right : Chain}

theorem meet_flatten_eq_true_iff :
    Atom.meet left.flatten right.flatten = true ↔ left.Meets right := by
  rw [Atom.meet, Bool.and_eq_true, Option.any_eq_true, Option.any_eq_true]
  constructor
  · rintro ⟨⟨last, ends, lastMember⟩, ⟨first, begins, firstMember⟩⟩
    obtain ⟨front, split⟩ := List.getLast?_eq_some_iff.mp ends
    obtain ⟨back, start⟩ := List.head?_eq_some_iff.mp begins
    cases last with
    | member lastText =>
        cases first with
        | member firstText => exact ⟨front, lastText, firstText, back, split, start⟩
        | token symbol => contradiction
        | literal scalar => contradiction
    | token symbol => contradiction
    | literal scalar => contradiction
  · rintro ⟨front, last, first, back, split, start⟩
    exact ⟨⟨.member last, by simp [split], rfl⟩, ⟨.member first, by simp [start], rfl⟩⟩

theorem flatten_append (left right : Chain) :
    Chain.flatten (left ++ right) = left.flatten ++ right.flatten :=
  Element.flattenAll_append left right

theorem flatten_pair (left right : Chain) :
    Chain.flatten [.chain left, .chain right] = left.flatten ++ right.flatten := by
  simp [flatten, Element.flattenAll, Element.flatten]

theorem text_eq_of_meets {chain : Chain} (atoms : chain.flatten = left.flatten ++ right.flatten)
    (meets : left.Meets right) : chain.text = left.text ++ "." ++ right.text := by
  rw [text, atoms, Atom.write_append_eq_meet, if_pos (meet_flatten_eq_true_iff.mpr meets),
    text, text]

theorem text_eq_of_not_meets {chain : Chain}
    (atoms : chain.flatten = left.flatten ++ right.flatten) (apart : ¬ left.Meets right) :
    chain.text = left.text ++ right.text := by
  rw [text, atoms, Atom.write_append_eq_meet, if_neg (mt meet_flatten_eq_true_iff.mp apart),
    String.append_empty, text, text]

theorem dotted_ne (before behind : String) : before ++ "." ++ behind ≠ before ++ behind := by
  intro same
  have longer := congrArg String.length same
  simp only [String.length_append] at longer
  have dot : ".".length = 1 := rfl
  omega

/-- Nothing but the sequence of the atoms of both decides how two chains are written in a row. -/
theorem text_eq_dotted_iff {chain : Chain} (atoms : chain.flatten = left.flatten ++ right.flatten) :
    (chain.text = left.text ++ "." ++ right.text ↔ left.Meets right) ∧
      (chain.text = left.text ++ right.text ↔ ¬ left.Meets right) := by
  by_cases meets : left.Meets right
  · have dotted := text_eq_of_meets atoms meets
    simp [dotted, meets]
  · have plain := text_eq_of_not_meets atoms meets
    simp [plain, meets, (dotted_ne left.text right.text).symm]

theorem flatten_around {hollow : List Element} (none : ∀ element ∈ hollow, element.Hollow)
    (front back : Chain) :
    Chain.flatten (front ++ (hollow ++ back)) = front.flatten ++ back.flatten := by
  have nothing : Chain.flatten hollow = [] :=
    (Element.forall_hollow_iff_flattenAll_eq_nil hollow).mp none
  rw [flatten_append, flatten_append, nothing, List.nil_append]

/-- Two chains in a row have the atoms of the first and then those of the second. Their text
is the first text and then the second, with a dot between exactly if both chains hold atoms
and two members meet. Chains without atoms that stand between change none of that. -/
theorem chains_concatenate :
    (∀ left right : Chain,
      Chain.flatten [.chain left, .chain right] = left.flatten ++ right.flatten ∧
      (Chain.text [.chain left, .chain right] = left.text ++ "." ++ right.text ↔
        left.Meets right) ∧
      (Chain.text [.chain left, .chain right] = left.text ++ right.text ↔
        ¬ left.Meets right)) ∧
    ∀ hollow : List Element, (∀ element ∈ hollow, element.Hollow) → ∀ front back : Chain,
      Chain.text (front ++ (hollow ++ back)) = Chain.text (front ++ back) ∧
      (Chain.text (front ++ (hollow ++ back)) = front.text ++ "." ++ back.text ↔
        front.Meets back) := by
  constructor
  · intro left right
    have atoms := flatten_pair left right
    exact ⟨atoms, text_eq_dotted_iff atoms⟩
  · intro hollow none front back
    have atoms := flatten_around none front back
    refine ⟨?_, (text_eq_dotted_iff atoms).1⟩
    rw [text, text, atoms, flatten_append]

/-- `data.val()`, once in two chains and once around a chain of empty chains. -/
theorem chains_concatenate_around_hollow :
    let data : Chain := [.member "data"]
    let value : Chain := [.chain [], .call "val" ""]
    let hollow : List Element := [.chain [.chain [], .chain [.chain []]]]
    data.Meets value ∧ (∀ element ∈ hollow, element.Hollow) ∧
      Chain.text [.chain data, .chain value] = "data.val()" ∧
      Chain.text (data ++ (hollow ++ value)) = "data.val()" := by
  intro data value hollow
  have meets : data.Meets value := ⟨[], "data", "val()", [], rfl, rfl⟩
  have none : ∀ element ∈ hollow, element.Hollow :=
    (Element.forall_hollow_iff_flattenAll_eq_nil hollow).mpr rfl
  obtain ⟨pairs, around⟩ := chains_concatenate
  exact ⟨meets, none, (pairs data value).2.1.mpr meets, (around hollow none data value).2.mpr meets⟩

end Chain

end AccessRules
