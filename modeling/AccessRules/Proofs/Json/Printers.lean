import AccessRules.Json.Codec
import AccessRules.Proofs.Json.Sequences
import AccessRules.Proofs.Json.Strings

namespace AccessRules

namespace Json

/-! The two texts of a document.

They differ in blanks alone, and blanks are skipped. So whatever is read from one of them is
read from the other: the document, a document with other numbers, or none.
-/

variable {depth : Nat} {text : List Char}

theorem readValue_eq (depth : Nat) :
    ∃ inner, readValue depth = readValueWith inner := by
  cases depth with
  | zero => exact ⟨_, rfl⟩
  | succ depth => exact ⟨_, rfl⟩

theorem readValue_blank (depth : Nat) {gap : List Char}
    (blank : ∀ char ∈ gap, isBlank char = true) (text : List Char) :
    readValue depth (gap ++ text) = readValue depth text := by
  obtain ⟨inner, same⟩ := readValue_eq depth
  rw [same, readValueWith, readValueWith, skipBlanks_blank blank]

theorem readValue_skipBlanks_append (depth : Nat) (text rest : List Char) :
    readValue depth (skipBlanks text ++ rest) = readValue depth (text ++ rest) := by
  have split : text.takeWhile isBlank ++ skipBlanks text = text := List.takeWhile_append_dropWhile
  conv_rhs => rw [← split, List.append_assoc]
  rw [readValue_blank depth (List.all_eq_true.mp List.all_takeWhile)]

section Values

variable {outcome : Option Json}

theorem ReadsAs.blank {α : Type} {entry : Reader α} {outcome : Option α}
    (read : ReadsAs entry text outcome) {gap : List Char}
    (blank : ∀ char ∈ gap, isBlank char = true) : ReadsAs entry (gap ++ text) outcome := by
  obtain ⟨opens, reads⟩ := read
  rw [← skipBlanks_blank blank] at opens reads
  exact ⟨opens, reads⟩

theorem ReadsAs.value (read : ReadsAs (readValue depth) text outcome) {rest : List Char}
    (ends : EndsValue rest) :
    (readValue depth (text ++ rest)).toOption = outcome.map fun value => (value, rest) := by
  rw [← readValue_skipBlanks_append, read.reads rest ends]

theorem readsAs_of_solid {first : Char} {more : List Char} (solid : isBlank first = false)
    (opens : first ≠ ']' ∧ first ≠ '}')
    (reads : ∀ rest, EndsValue rest →
      (readValue depth (first :: (more ++ rest))).toOption =
        outcome.map fun value => (value, rest)) :
    ReadsAs (readValue depth) (first :: more) outcome where
  opens := ⟨first, more, skipBlanks_cons solid more, opens⟩
  reads rest ends := by rw [skipBlanks_cons solid, List.cons_append, reads rest ends]

theorem ne_bracket_of_isDigit {char : Char} (digit : char.isDigit = true) :
    char ≠ ']' ∧ char ≠ '}' := by
  refine ⟨?_, ?_⟩
  all_goals
    intro same
    subst same
    contradiction

theorem readsAs_numeral (negative : Bool) (numeral : Numeral)
    (reads : ∀ rest, EndsValue rest → (readNumber negative (numeral.text ++ rest)).toOption =
      outcome.map fun value => (value, rest)) :
    ReadsAs (readValue depth) ((if negative then ['-'] else []) ++ numeral.text) outcome := by
  obtain ⟨inner, same⟩ := readValue_eq depth
  have whole (rest : List Char) (ends : EndsValue rest) :
      (readValue depth ((if negative then ['-'] else []) ++ (numeral.text ++ rest))).toOption =
        outcome.map fun value => (value, rest) := by
    rw [same, readValueWith_numeral, reads rest ends]
  obtain ⟨first, digits, begins⟩ := List.exists_cons_of_ne_nil numeral.whole_ne_nil
  have digit : first.isDigit = true := numeral.whole_isDigit first (by simp [begins])
  cases negative with
  | true => exact readsAs_of_solid rfl (by decide) whole
  | false =>
      have starts : numeral.text = first :: (digits ++
          (Numeral.fractionText numeral.fraction ++ Numeral.exponentText numeral.exponent)) := by
        rw [Numeral.text, begins, List.cons_append]
      simp only [Bool.false_eq_true, if_false, List.nil_append, starts] at whole ⊢
      exact readsAs_of_solid (isBlank_of_isDigit digit) (ne_bracket_of_isDigit digit) whole

theorem exists_readsAs_integer (depth : Nat) (value : Int) :
    ∃ outcome, ReadsAs (readValue depth) (toString value).toList outcome := by
  let sign := decide (value < 0)
  have read : ReadsAs (readValue depth)
      ((if sign = true then ['-'] else []) ++ (Numeral.ofNat value.natAbs).text)
      (wholeOutcome sign (wholeValue (Numeral.ofNat value.natAbs).whole)) := by
    apply readsAs_numeral
    intro rest ends
    rw [readNumber_ofNat _ _ ends, toOption_wholeNumber]
  simp only [sign, decide_eq_true_eq] at read
  rw [Numeral.toList_toString]
  exact ⟨_, read⟩

theorem exists_readsAs_float (depth : Nat) {value : Binary64} (finite : value.isFinite = true) :
    ∃ outcome, ReadsAs (readValue depth) (floatText value) outcome := by
  obtain ⟨numeral, written, marked, limited⟩ := floatText_eq_text finite
  rw [written]
  refine ⟨floatOutcome value.negative (kept numeral), readsAs_numeral _ _ ?_⟩
  intro rest ends
  rw [readNumber_text _ marked limited ends, toOption_finishFloat]

theorem readsAs_word {first : Char} {more : List Char} {value : Json}
    (solid : isBlank first = false) (opens : first ≠ ']' ∧ first ≠ '}')
    (reads : ∀ inner rest, readValueWith inner (first :: (more ++ rest)) = .ok (value, rest)) :
    ReadsAs (readValue depth) (first :: more) (some value) := by
  obtain ⟨inner, same⟩ := readValue_eq depth
  refine readsAs_of_solid solid opens ?_
  intro rest _
  rw [same, reads]
  rfl

theorem exists_readsAs_scalar (depth : Nat) (value : Json) (list : ∀ items, value ≠ .array items)
    (record : ∀ members, value ≠ .object members) :
    ∃ outcome, ReadsAs (readValue depth) value.scalarText.toList outcome := by
  have null : ReadsAs (readValue depth) "null".toList (some .null) :=
    readsAs_word rfl (by decide) fun _ _ => rfl
  cases value with
  | null => exact ⟨_, null⟩
  | boolean value =>
      cases value with
      | true => exact ⟨_, readsAs_word rfl (by decide) fun _ _ => rfl⟩
      | false => exact ⟨_, readsAs_word rfl (by decide) fun _ _ => rfl⟩
  | integer value => exact exists_readsAs_integer depth value
  | float value =>
      rw [scalarText]
      by_cases finite : value.isFinite = true
      · rw [if_pos finite, String.toList_ofList]
        exact exists_readsAs_float depth finite
      · rw [if_neg finite]
        exact ⟨_, null⟩
  | string value =>
      rw [scalarText, toList_quote]
      refine ⟨some (.string value), readsAs_word rfl (by decide) ?_⟩
      intro inner rest
      rw [readValueWith, skipBlanks_cons rfl]
      simp only [List.append_assoc, List.singleton_append, readString_quote]
      rfl
  | array items => exact absurd rfl (list items)
  | object members => exact absurd rfl (record members)

theorem readsAs_array {texts : List (List Char)} {outcomes : List (Option Json)}
    (entries : List.Forall₂ (ReadsAs (readValue depth)) texts outcomes) (tail : List Char)
    (blank : ∀ char ∈ tail, isBlank char = true) :
    ReadsAs (readValue (depth + 1)) ('[' :: ([','].intercalate texts ++ (tail ++ [']'])))
      ((outcomes.mapM id).map .array) := by
  refine readsAs_of_solid rfl (by decide) ?_
  intro rest ends
  have read : (readEntries .list (readValue depth)
      ([','].intercalate texts ++ (tail ++ ']' :: rest))).toOption =
      (outcomes.mapM id).map fun items => (items, rest) := readEntries_text entries blank rest
  rw [readValue, readValueWith, skipBlanks_cons rfl]
  simp only [readList_eq, List.append_assoc, List.singleton_append, toOption_map, read,
    Option.map_map]
  rfl

theorem readsAs_object {texts : List (List Char)} {outcomes : List (Option (String × Json))}
    (entries : List.Forall₂ (ReadsAs (readMember (readValue depth))) texts outcomes)
    (tail : List Char) (blank : ∀ char ∈ tail, isBlank char = true) :
    ReadsAs (readValue (depth + 1)) ('{' :: ([','].intercalate texts ++ (tail ++ ['}'])))
      ((outcomes.mapM id).map fun pairs => .object (Entries.ofPairs pairs)) := by
  refine readsAs_of_solid rfl (by decide) ?_
  intro rest ends
  have read : (readEntries .object (readMember (readValue depth))
      ([','].intercalate texts ++ (tail ++ '}' :: rest))).toOption =
      (outcomes.mapM id).map fun pairs => (pairs, rest) := readEntries_text entries blank rest
  rw [readValue, readValueWith, skipBlanks_cons rfl]
  simp only [readObject_eq, List.append_assoc, List.singleton_append, toOption_map, read,
    Option.map_map]
  rfl

theorem readsAs_tooDeep {first : Char} (bracket : first = '[' ∨ first = '{') (more : List Char) :
    ReadsAs (readValue 0) (first :: more) none := by
  rcases bracket with rfl | rfl
  · exact readsAs_of_solid rfl (by decide) fun _ _ => rfl
  · exact readsAs_of_solid rfl (by decide) fun _ _ => rfl

/-- A key, a colon and a value, with blanks in front of the key and of the value. -/
theorem readsAs_member (key : String) (read : ReadsAs (readValue depth) text outcome)
    (lead gap : List Char) (leadBlank : ∀ char ∈ lead, isBlank char = true)
    (gapBlank : ∀ char ∈ gap, isBlank char = true) :
    ReadsAs (readMember (readValue depth))
      (lead ++ ((quote key).toList ++ ':' :: (gap ++ text)))
      (outcome.map fun value => (key, value)) := by
  apply ReadsAs.blank _ leadBlank
  rw [toList_quote]
  refine ⟨⟨'"', _, skipBlanks_cons rfl _, by decide⟩, ?_⟩
  intro rest ends
  have behind : skipBlanks (':' :: (gap ++ text ++ rest)) = ':' :: (gap ++ text ++ rest) :=
    skipBlanks_cons rfl _
  have value := (read.blank gapBlank).value ends
  rw [List.cons_append, skipBlanks_cons rfl]
  simp only [List.cons_append, List.append_assoc, List.nil_append, readMember,
    readString_quote] at behind value ⊢
  simp only [behind, toOption_map, value, Option.map_map]
  rfl

end Values

theorem compactItems_eq_map (items : List Json) : compactItems items = items.map compact := by
  induction items with
  | nil => rfl
  | cons item rest induction => rw [compactItems, induction, List.map_cons]

theorem compactMembers_eq_map (members : List (String × Json)) :
    compactMembers members =
      members.map fun (key, value) => quote key ++ ":" ++ value.compact := by
  induction members with
  | nil => rfl
  | cons member rest induction => rw [compactMembers, induction, List.map_cons]

theorem prettyItems_eq_map (level : Nat) (items : List Json) :
    prettyItems level items = items.map (pretty level) := by
  induction items with
  | nil => rfl
  | cons item rest induction => rw [prettyItems, induction, List.map_cons]

theorem prettyMembers_eq_map (level : Nat) (members : List (String × Json)) :
    prettyMembers level members =
      members.map fun (key, value) => quote key ++ ": " ++ value.pretty level := by
  induction members with
  | nil => rfl
  | cons member rest induction => rw [prettyMembers, induction, List.map_cons]

theorem lineStart_isBlank (level : Nat) :
    ∀ char ∈ (lineStart level).toList, isBlank char = true := by
  intro char member
  rw [lineStart, String.toList_ofList] at member
  rcases List.mem_cons.mp member with rfl | space
  · rfl
  · rw [List.eq_of_mem_replicate space]
    rfl

/-- The entries of a block stand behind line starts, and blanks alone stand in front of the
closing bracket. -/
theorem toList_block (opening closing : String) (level : Nat) (entries : List String) :
    ∃ tail : List Char, (∀ char ∈ tail, isBlank char = true) ∧
      (block opening closing level entries).toList =
        opening.toList ++ ([','].intercalate
          (entries.map fun entry => (lineStart (level + 1)).toList ++ entry.toList) ++
            (tail ++ closing.toList)) := by
  rw [block]
  cases entries with
  | nil => exact ⟨[], by simp, by simp⟩
  | cons entry rest =>
      refine ⟨(lineStart level).toList, lineStart_isBlank level, ?_⟩
      simp only [List.isEmpty_cons, Bool.false_eq_true, if_false, String.toList_append,
        String.toList_intercalate, List.map_map, List.append_assoc, Function.comp_def]
      rfl

/-- What is read from either text of a document at a depth. -/
structure PrintsAs (depth : Nat) (document : Json) (outcome : Option Json) : Prop where
  compact : ReadsAs (readValue depth) document.compact.toList outcome
  pretty : ∀ level, ReadsAs (readValue depth) (document.pretty level).toList outcome

variable {items : List Json} {members : List (String × Json)}

theorem printsAs_array {outcomes : List (Option Json)}
    (all : List.Forall₂ (PrintsAs depth) items outcomes) :
    PrintsAs (depth + 1) (.array items) ((outcomes.mapM id).map .array) where
  compact := by
    rw [compact, compactItems_eq_map]
    simp only [String.toList_append, String.toList_intercalate, List.map_map]
    refine readsAs_array ?_ [] (by simp)
    exact List.forall₂_map_left_iff.mpr (all.imp fun _ _ item => item.compact)
  pretty level := by
    -- The level decides how many blanks stand there, and each of them is skipped.
    rw [pretty, prettyItems_eq_map]
    obtain ⟨tail, blank, written⟩ :=
      toList_block "[" "]" level (items.map (Json.pretty (level + 1)))
    rw [written, List.map_map]
    refine readsAs_array ?_ tail blank
    refine List.forall₂_map_left_iff.mpr (all.imp fun _ _ item => ?_)
    exact (item.pretty (level + 1)).blank (lineStart_isBlank _)

/-- The outcome for a member is that of its value, under its key. -/
def MemberPrintsAs (depth : Nat) (member : String × Json) (outcome : Option (String × Json)) :
    Prop :=
  ∃ value, PrintsAs depth member.2 value ∧ outcome = value.map fun json => (member.1, json)

theorem printsAs_object {outcomes : List (Option (String × Json))}
    (all : List.Forall₂ (MemberPrintsAs depth) members outcomes) :
    PrintsAs (depth + 1) (.object members)
      ((outcomes.mapM id).map fun pairs => .object (Entries.ofPairs pairs)) where
  compact := by
    rw [compact, compactMembers_eq_map]
    simp only [String.toList_append, String.toList_intercalate, List.map_map]
    refine readsAs_object ?_ [] (by simp)
    refine List.forall₂_map_left_iff.mpr (all.imp fun (key, json) outcome told => ?_)
    obtain ⟨value, printed, rfl⟩ := told
    have read := readsAs_member key printed.compact [] [] (by simp) (by simp)
    simpa using read
  pretty level := by
    rw [pretty, prettyMembers_eq_map]
    obtain ⟨tail, blank, written⟩ := toList_block "\x7b" "\x7d" level
      (members.map fun (key, value) => quote key ++ ": " ++ value.pretty (level + 1))
    rw [written, List.map_map]
    refine readsAs_object ?_ tail blank
    refine List.forall₂_map_left_iff.mpr (all.imp fun (key, json) outcome told => ?_)
    obtain ⟨value, printed, rfl⟩ := told
    have read := readsAs_member key (printed.pretty (level + 1)) _ [' ']
      (lineStart_isBlank (level + 1)) (by simp [isBlank])
    simpa using read

theorem printsAs_tooDeep_array (items : List Json) : PrintsAs 0 (.array items) none where
  compact := by
    rw [compact]
    simp only [String.toList_append]
    exact readsAs_tooDeep (.inl rfl) _
  pretty level := by
    rw [pretty]
    obtain ⟨tail, -, written⟩ := toList_block "[" "]" level (prettyItems (level + 1) items)
    rw [written]
    exact readsAs_tooDeep (.inl rfl) _

theorem printsAs_tooDeep_object (members : List (String × Json)) :
    PrintsAs 0 (.object members) none where
  compact := by
    rw [compact]
    simp only [String.toList_append]
    exact readsAs_tooDeep (.inr rfl) _
  pretty level := by
    rw [pretty]
    obtain ⟨tail, -, written⟩ :=
      toList_block "\x7b" "\x7d" level (prettyMembers (level + 1) members)
    rw [written]
    exact readsAs_tooDeep (.inr rfl) _

theorem exists_printsAs_scalar (depth : Nat) {document : Json}
    (list : ∀ items, document ≠ .array items) (record : ∀ members, document ≠ .object members) :
    ∃ outcome, PrintsAs depth document outcome := by
  obtain ⟨outcome, read⟩ := exists_readsAs_scalar depth document list record
  cases document with
  | array items => exact absurd rfl (list items)
  | object members => exact absurd rfl (record members)
  | _ => exact ⟨outcome, read, fun _ => read⟩

mutual

/-- What is read does not turn on the printer, for any document and at any depth. -/
theorem exists_printsAs (depth : Nat) (document : Json) :
    ∃ outcome, PrintsAs depth document outcome := by
  cases document with
  | array items =>
      cases depth with
      | zero => exact ⟨none, printsAs_tooDeep_array items⟩
      | succ depth =>
          obtain ⟨outcomes, all⟩ := exists_forall₂_printsAs depth items
          exact ⟨_, printsAs_array all⟩
  | object members =>
      cases depth with
      | zero => exact ⟨none, printsAs_tooDeep_object members⟩
      | succ depth =>
          obtain ⟨outcomes, all⟩ := exists_forall₂_memberPrintsAs depth members
          exact ⟨_, printsAs_object all⟩
  | _ => exact exists_printsAs_scalar depth (by simp) (by simp)

theorem exists_forall₂_printsAs (depth : Nat) (items : List Json) :
    ∃ outcomes, List.Forall₂ (PrintsAs depth) items outcomes := by
  cases items with
  | nil => exact ⟨[], .nil⟩
  | cons item rest =>
      obtain ⟨outcome, first⟩ := exists_printsAs depth item
      obtain ⟨outcomes, others⟩ := exists_forall₂_printsAs depth rest
      exact ⟨outcome :: outcomes, .cons first others⟩

theorem exists_forall₂_memberPrintsAs (depth : Nat) (members : List (String × Json)) :
    ∃ outcomes, List.Forall₂ (MemberPrintsAs depth) members outcomes := by
  cases members with
  | nil => exact ⟨[], .nil⟩
  | cons member rest =>
      obtain ⟨key, json⟩ := member
      obtain ⟨outcome, first⟩ := exists_printsAs depth json
      obtain ⟨outcomes, others⟩ := exists_forall₂_memberPrintsAs depth rest
      exact ⟨_ :: outcomes, .cons ⟨outcome, first, rfl⟩ others⟩

end

/-- A text is read with the outcome of its value if blanks alone stand behind it. -/
theorem toOption_readDocument {text rest : List Char} {outcome : Option Json}
    (read : (readValue nestingLimit text).toOption = outcome.map fun value => (value, rest))
    (blank : skipBlanks rest = []) : (readDocument text).toOption = outcome := by
  unfold readDocument
  cases found : readValue nestingLimit text with
  | error fault =>
      rw [found] at read
      cases outcome with
      | none => rfl
      | some value => contradiction
  | ok value =>
      rw [found] at read
      cases outcome with
      | none => contradiction
      | some value =>
          obtain rfl := Option.some.inj read
          simp only [blank]
          rfl

theorem toOption_mapError {ε δ α : Type} (result : Except ε α) (convert : ε → δ) :
    (result.mapError convert).toOption = result.toOption := by
  cases result <;> rfl

/-- A text is read as its outcome, in front of a line end or not. -/
theorem toOption_read {text : String} {outcome : Option Json}
    (read : ReadsAs (readValue nestingLimit) text.toList outcome) :
    (Json.read text).toOption = outcome ∧ (Json.read (text ++ "\n")).toOption = outcome := by
  have line : EndsValue ['\n'] := endsValue_cons (.inr (.inr (.inr rfl))) []
  have alone : EndsValue [] := by simp [EndsValue]
  rw [Json.read, Json.read, toOption_mapError, toOption_mapError, String.toList_append]
  refine ⟨?_, toOption_readDocument (read.value line) rfl⟩
  have whole := read.value alone
  rw [List.append_nil] at whole
  exact toOption_readDocument whole rfl

end Json

namespace JsonCodec

/-- The printers of this library may be taken for one another. -/
theorem standard_printersAgree : standard.PrintersAgree where
  printed document := by
    obtain ⟨outcome, printed⟩ := Json.exists_printsAs Json.nestingLimit document
    refine ⟨document.compact, document.pretty 0, rfl, rfl, ?_⟩
    exact (Json.toOption_read printed.compact).1.trans
      (Json.toOption_read (printed.pretty 0)).1.symm
  ended document text told := by
    obtain ⟨outcome, printed⟩ := Json.exists_printsAs Json.nestingLimit document
    have read : (Json.read text).toOption = outcome ∧
        (Json.read (text ++ "\n")).toOption = outcome := by
      rcases told with line | indented
      · cases line
        exact Json.toOption_read printed.compact
      · cases indented
        exact Json.toOption_read (printed.pretty 0)
    exact read.2.trans read.1.symm

end JsonCodec

end AccessRules
