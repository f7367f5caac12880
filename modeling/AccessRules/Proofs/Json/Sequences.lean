import AccessRules.Proofs.Json.Numbers

namespace AccessRules.Json

/-! Entries between brackets.

Lists and objects are read by the same steps: a blank may stand around every entry, commas
stand between them, and the closing bracket ends them. What differs is the bracket, the
reader of an entry and the names of some faults.
-/

structure Brackets where
  closing : Char
  closes : closing = ']' ∨ closing = '}'
  ended : Cause
  unexpected : Cause

namespace Brackets

def list : Brackets := ⟨']', .inl rfl, .endOfList, .expectedListEnd⟩

def object : Brackets := ⟨'}', .inr rfl, .endOfObject, .expectedObjectEnd⟩

theorem closing_isBlank (brackets : Brackets) : isBlank brackets.closing = false := by
  rcases brackets.closes with closing | closing <;> rw [closing] <;> rfl

end Brackets

variable {α : Type}

def readCons (reading : Reading α) (more : List Char → Reading (List α)) : Reading (List α) :=
  match reading with
  | .error fault => .error fault
  | .ok (value, after) => (more after).map fun (values, last) => (value :: values, last)

def readMore (brackets : Brackets) (entry : Reader α) : Nat → Reader (List α)
  | 0, text => failAt brackets.ended text
  | steps + 1, text =>
      match skipBlanks text with
      | [] => failAt brackets.ended []
      | char :: rest =>
          if char = brackets.closing then .ok ([], rest)
          else if char = ',' then
            match skipBlanks rest with
            | [] => failAt .endOfValue []
            | next :: more =>
                if next = brackets.closing then failAt .trailingComma (next :: more)
                else readCons (entry (next :: more)) (readMore brackets entry steps)
          else failAt brackets.unexpected (char :: rest)

def readEntries (brackets : Brackets) (entry : Reader α) (text : List Char) : Reading (List α) :=
  match skipBlanks text with
  | [] => failAt brackets.ended []
  | next :: more =>
      if next = brackets.closing then .ok ([], more)
      else
        readCons (entry (next :: more)) fun after => readMore brackets entry (after.length + 1) after

theorem readMoreItems_eq (item : Reader Json) (steps : Nat) :
    readMoreItems item steps = readMore .list item steps := by
  induction steps with
  | zero => rfl
  | succ steps induction =>
      funext text
      rw [readMoreItems, readMore, induction]
      cases skipBlanks text with
      | nil => rfl
      | cons char rest => cases skipBlanks rest <;> grind [Brackets.list, readCons]

theorem readMoreMembers_eq (item : Reader Json) (steps : Nat) :
    readMoreMembers item steps = readMore .object (readMember item) steps := by
  induction steps with
  | zero => rfl
  | succ steps induction =>
      funext text
      rw [readMoreMembers, readMore, induction]
      cases skipBlanks text with
      | nil => rfl
      | cons char rest => cases skipBlanks rest <;> grind [Brackets.object, readCons]

theorem readList_eq (item : Reader Json) : readList item = readEntries .list item := by
  funext text
  simp only [readList, readEntries, readMoreItems_eq]
  cases skipBlanks text <;> grind [Brackets.list, readCons]

theorem readObject_eq (item : Reader Json) :
    readObject item = readEntries .object (readMember item) := by
  funext text
  simp only [readObject, readEntries, readMoreMembers_eq]
  cases skipBlanks text <;> grind [Brackets.object, readCons]

/-- A text that is read with this outcome, or refused where there is none, whatever may stand
behind it. It does not open with the end of a list or an object. -/
structure ReadsAs (entry : Reader α) (text : List Char) (outcome : Option α) : Prop where
  opens : ∃ first more, skipBlanks text = first :: more ∧ first ≠ ']' ∧ first ≠ '}'
  reads : ∀ rest, EndsValue rest →
    (entry (skipBlanks text ++ rest)).toOption = outcome.map fun value => (value, rest)

theorem skipBlanks_blank {gap : List Char} (blank : ∀ char ∈ gap, isBlank char = true)
    (text : List Char) : skipBlanks (gap ++ text) = skipBlanks text :=
  List.dropWhile_append_of_pos blank

theorem skipBlanks_append {text : List Char} (solid : skipBlanks text ≠ []) (rest : List Char) :
    skipBlanks (text ++ rest) = skipBlanks text ++ rest := by
  unfold skipBlanks at *
  rw [List.dropWhile_append, if_neg (by simpa using solid)]

variable {brackets : Brackets} {entry : Reader α} {texts : List (List Char)}
  {outcomes : List (Option α)}

theorem ne_closing (brackets : Brackets) {char : Char} (other : char ≠ ']' ∧ char ≠ '}') :
    char ≠ brackets.closing := by
  rcases brackets.closes with closing | closing <;> rw [closing]
  · exact other.1
  · exact other.2

theorem endsValue_closing {tail : List Char} (blank : ∀ char ∈ tail, isBlank char = true)
    (rest : List Char) : EndsValue (tail ++ brackets.closing :: rest) := by
  cases tail with
  | nil => exact endsValue_cons (.inr (brackets.closes.imp_right .inl)) rest
  | cons char tail => exact endsValue_cons (.inr (.inr (.inr (blank char (by simp))))) _

theorem endsValue_more (brackets : Brackets) {tail : List Char}
    (blank : ∀ char ∈ tail, isBlank char = true) (texts : List (List Char)) (rest : List Char) :
    EndsValue (texts.flatMap (',' :: ·) ++ (tail ++ brackets.closing :: rest)) := by
  cases texts with
  | nil => exact endsValue_closing blank rest
  | cons text texts => exact endsValue_cons (.inl rfl) _

theorem toOption_map {ε β : Type} (reading : Except ε α) (convert : α → β) :
    (reading.map convert).toOption = reading.toOption.map convert := by
  cases reading <;> rfl

theorem toOption_readCons {reading : Reading α} {outcome : Option α} {behind rest : List Char}
    {more : List Char → Reading (List α)} {others : Option (List α)}
    (read : reading.toOption = outcome.map fun value => (value, behind))
    (later : (more behind).toOption = others.map fun values => (values, rest)) :
    (readCons reading more).toOption =
      (do return (← outcome) :: (← others)).map fun values => (values, rest) := by
  cases reading with
  | error fault =>
      cases outcome with
      | none => rfl
      | some value => contradiction
  | ok found =>
      cases outcome with
      | none => contradiction
      | some value =>
          obtain rfl := Option.some.inj read
          rw [readCons, toOption_map, later]
          cases others <;> rfl

/-- Entries have an outcome together if each of them has one. -/
theorem readMore_text (brackets : Brackets) (entries : List.Forall₂ (ReadsAs entry) texts outcomes)
    {tail : List Char} (blank : ∀ char ∈ tail, isBlank char = true) (rest : List Char)
    {steps : Nat} (enough : texts.length < steps) :
    (readMore brackets entry steps
        (texts.flatMap (',' :: ·) ++ (tail ++ brackets.closing :: rest))).toOption =
      (outcomes.mapM id).map fun values => (values, rest) := by
  induction entries generalizing steps with
  | nil =>
      cases steps with
      | zero => contradiction
      | succ steps =>
          rw [List.flatMap_nil, List.nil_append, readMore, skipBlanks_blank blank,
            skipBlanks_cons brackets.closing_isBlank]
          simp [Except.toOption]
  | @cons text outcome texts outcomes first _ induction =>
      cases steps with
      | zero => contradiction
      | succ steps =>
          obtain ⟨next, more, starts, opens⟩ := first.opens
          have comma : (',' = brackets.closing) = False := by
            rcases brackets.closes with closing | closing <;> simp [closing]
          have read := first.reads _ (endsValue_more brackets blank texts rest)
          have later := induction (Nat.lt_of_succ_lt_succ enough)
          rw [starts, List.cons_append] at read
          rw [List.flatMap_cons, List.append_assoc, List.cons_append, readMore,
            skipBlanks_cons rfl]
          simp only [comma, if_false, if_true]
          rw [skipBlanks_append (by simp [starts]), starts, List.cons_append]
          simp only [ne_closing brackets opens, if_false]
          rw [List.mapM_cons]
          exact toOption_readCons read later

theorem intercalate_comma (text : List Char) (texts : List (List Char)) :
    [','].intercalate (text :: texts) = text ++ texts.flatMap (',' :: ·) := by
  induction texts generalizing text with
  | nil => simp
  | cons next texts induction =>
      rw [List.intercalate_cons_cons, induction, List.flatMap_cons]
      simp

theorem length_le_flatMap_comma (texts : List (List Char)) :
    texts.length ≤ (texts.flatMap (',' :: ·)).length := by
  induction texts with
  | nil => exact Nat.le_refl _
  | cons text texts induction =>
      rw [List.flatMap_cons, List.length_append, List.length_cons, List.length_cons]
      omega

theorem readEntries_text (entries : List.Forall₂ (ReadsAs entry) texts outcomes)
    {tail : List Char} (blank : ∀ char ∈ tail, isBlank char = true) (rest : List Char) :
    (readEntries brackets entry
        ([','].intercalate texts ++ (tail ++ brackets.closing :: rest))).toOption =
      (outcomes.mapM id).map fun values => (values, rest) := by
  cases entries with
  | nil =>
      rw [List.intercalate_nil, List.nil_append, readEntries, skipBlanks_blank blank,
        skipBlanks_cons brackets.closing_isBlank]
      simp [Except.toOption]
  | @cons text outcome texts outcomes first others =>
      obtain ⟨next, more, starts, opens⟩ := first.opens
      have read := first.reads _ (endsValue_more brackets blank texts rest)
      rw [starts, List.cons_append] at read
      rw [intercalate_comma, List.append_assoc, readEntries, skipBlanks_append (by simp [starts]),
        starts, List.cons_append]
      have commas := length_le_flatMap_comma texts
      have enough : texts.length <
          (texts.flatMap (',' :: ·) ++ (tail ++ brackets.closing :: rest)).length + 1 := by
        rw [List.length_append]
        omega
      have later := readMore_text brackets others blank rest enough
      simp only [ne_closing brackets opens, if_false]
      rw [List.mapM_cons]
      exact toOption_readCons read later

end AccessRules.Json
