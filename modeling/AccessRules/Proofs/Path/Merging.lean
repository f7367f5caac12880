import AccessRules.Proofs.Path.Pieces

namespace AccessRules.Path

/-! Fixed segments side by side, written as one.

What stands around a fixed segment is written by its kind alone, so two of them may be
replaced by one whose text trims to theirs. A text that is a lone slash, or nothing,
leaves a slash on each of its sides that has a neighbour, and one segment has no place
for both.
-/

def merged (first second : String) : String :=
  String.ofList (dropTrailingSlash first.toList ++ '/' :: dropLeadingSlash second.toList)

theorem dropTrailingSlash_append_slash (text : List Char) :
    dropTrailingSlash (text ++ ['/']) = text := by
  simp [dropTrailingSlash]

theorem dropTrailingSlash_append_of_ne {char : Char} (other : char ≠ '/') (text : List Char) :
    dropTrailingSlash (text ++ [char]) = text ++ [char] := by
  simp [dropTrailingSlash, other]

theorem dropTrailingSlash_append {text : List Char} (nonempty : text ≠ []) (front : List Char) :
    dropTrailingSlash (front ++ text) = front ++ dropTrailingSlash text := by
  obtain ⟨init, char, rfl⟩ := (List.eq_nil_or_concat text).resolve_left nonempty
  rw [List.concat_eq_append, ← List.append_assoc]
  by_cases slash : char = '/'
  · rw [slash, dropTrailingSlash_append_slash, dropTrailingSlash_append_slash]
  · rw [dropTrailingSlash_append_of_ne slash, dropTrailingSlash_append_of_ne slash,
      List.append_assoc]

theorem dropLeadingSlash_of_ne {char : Char} (other : char ≠ '/') (text : List Char) :
    dropLeadingSlash (char :: text) = char :: text := by
  simp [dropLeadingSlash, other]

theorem dropLeadingSlash_append {text : List Char} (nonempty : text ≠ []) (rest : List Char) :
    dropLeadingSlash (text ++ rest) = dropLeadingSlash text ++ rest := by
  obtain ⟨char, more, rfl⟩ := List.exists_cons_of_ne_nil nonempty
  rw [List.cons_append]
  by_cases slash : char = '/'
  · rw [slash]
    rfl
  · rw [dropLeadingSlash_of_ne slash, dropLeadingSlash_of_ne slash, List.cons_append]

theorem dropTrailingSlash_eq_nil_iff (text : List Char) :
    dropTrailingSlash text = [] ↔ text = [] ∨ text = ['/'] := by
  rcases List.eq_nil_or_concat text with rfl | ⟨init, char, rfl⟩
  · simp [dropTrailingSlash]
  · rw [List.concat_eq_append]
    by_cases slash : char = '/'
    · rw [slash, dropTrailingSlash_append_slash]
      simp
    · rw [dropTrailingSlash_append_of_ne slash]
      simp [List.append_eq_singleton_iff, slash]

theorem dropLeadingSlash_eq_nil_iff (text : List Char) :
    dropLeadingSlash text = [] ↔ text = [] ∨ text = ['/'] := by
  cases text with
  | nil => simp [dropLeadingSlash]
  | cons char rest =>
      by_cases slash : char = '/'
      · simp [slash, dropLeadingSlash]
      · simp [dropLeadingSlash_of_ne slash, slash]

/-- Which of the two slashes is dropped first shows in no text, not even in a lone slash. -/
theorem dropLeadingSlash_dropTrailingSlash (text : List Char) :
    dropLeadingSlash (dropTrailingSlash text) = dropTrailingSlash (dropLeadingSlash text) := by
  cases text with
  | nil => rfl
  | cons char rest =>
      cases rest with
      | nil =>
          by_cases slash : char = '/'
          · rw [slash]
            rfl
          · rw [dropLeadingSlash_of_ne slash, ← List.nil_append [char],
              dropTrailingSlash_append_of_ne slash, List.nil_append, dropLeadingSlash_of_ne slash]
      | cons next more =>
          have inside : dropTrailingSlash (char :: next :: more) =
              char :: dropTrailingSlash (next :: more) :=
            dropTrailingSlash_append (List.cons_ne_nil next more) [char]
          rw [inside]
          by_cases slash : char = '/'
          · rw [slash]
            rfl
          · rw [dropLeadingSlash_of_ne slash, dropLeadingSlash_of_ne slash, inside]

theorem trim_append_slash (first last : Bool) {front back : List Char}
    (frontKept : front = [] → first = true) (backKept : back = [] → last = true) :
    trim first last (front ++ '/' :: back) =
      trim first true front ++ '/' :: trim true last back := by
  have headed : trim first true (front ++ '/' :: back) = trim first true front ++ '/' :: back := by
    cases first with
    | true => rfl
    | false => exact dropLeadingSlash_append (by simpa using frontKept) _
  cases last with
  | true => exact headed
  | false =>
      have nonempty : back ≠ [] := by simpa using backKept
      calc trim first false (front ++ '/' :: back)
          = dropTrailingSlash (trim first true (front ++ '/' :: back)) := rfl
        _ = dropTrailingSlash (trim first true front ++ ['/'] ++ back) := by
            rw [headed, List.append_assoc, List.singleton_append]
        _ = trim first true front ++ '/' :: dropTrailingSlash back := by
            rw [dropTrailingSlash_append nonempty, List.append_assoc, List.singleton_append]

/-- An empty side that has a neighbour gives up the slash between the sides. -/
theorem length_trim_append_slash_lt (first last : Bool) {front back : List Char}
    (lost : (front = [] ∧ first = false) ∨ (back = [] ∧ last = false)) :
    (trim first last (front ++ '/' :: back)).length <
      (trim first true front ++ '/' :: trim true last back).length := by
  rcases lost with ⟨rfl, rfl⟩ | ⟨rfl, rfl⟩
  · exact Nat.lt_succ_self (trim true last back).length
  · by_cases bare : front = [] ∧ first = false
    · obtain ⟨rfl, rfl⟩ := bare
      decide
    · have headed : trim first true (front ++ ['/']) = trim first true front ++ ['/'] :=
        trim_append_slash first true (by simpa using bare) (fun _ => rfl)
      have left : trim first false (front ++ ['/']) = trim first true front := by
        rw [← dropTrailingSlash_append_slash (trim first true front), ← headed]
        rfl
      rw [left]
      simp

theorem trim_merged_iff (first last : Bool) (left right : List Char) :
    trim first last (dropTrailingSlash left ++ '/' :: dropLeadingSlash right) =
        trim first false left ++ '/' :: trim false last right ↔
      (left = [] ∨ left = ['/'] → first = true) ∧ (right = [] ∨ right = ['/'] → last = true) := by
  have front : trim first true (dropTrailingSlash left) = trim first false left := by
    cases first with
    | true => rfl
    | false => exact dropLeadingSlash_dropTrailingSlash left
  have back : trim true last (dropLeadingSlash right) = trim false last right := rfl
  rw [← front, ← back, ← dropTrailingSlash_eq_nil_iff, ← dropLeadingSlash_eq_nil_iff]
  constructor
  · intro same
    by_contra kept
    have lost : (dropTrailingSlash left = [] ∧ first = false) ∨
        (dropLeadingSlash right = [] ∧ last = false) := by
      simpa [Classical.or_iff_not_imp_left] using kept
    have shorter := length_trim_append_slash_lt first last lost
    rw [same] at shorter
    exact absurd shorter (Nat.lt_irrefl _)
  · rintro ⟨frontKept, backKept⟩
    exact trim_append_slash first last frontKept backKept

/-- A segment tells of its neighbours only whether they are fixed. -/
theorem Segment.write_before_static (previous : Option Segment) (segment : Segment)
    (text other : String) :
    segment.write previous (some (.static text)) = segment.write previous (some (.static other)) := by
  cases segment <;> rfl

theorem writeFrom_behind_static (text other : String) (segments : List Segment) :
    writeFrom (some (.static text)) segments = writeFrom (some (.static other)) segments := by
  cases segments with
  | nil => rfl
  | cons segment rest => cases segment <;> rfl

/-- What is written before a fixed segment is the same for every text of it. -/
theorem exists_writeFrom_append_static (previous : Option Segment) (before : List Segment) :
    ∃ written neighbour, (neighbour.isSome = (previous.isSome || !before.isEmpty)) ∧
      ∀ text rest, writeFrom previous (before ++ .static text :: rest) =
        written ++ writeFrom neighbour (.static text :: rest) := by
  induction before generalizing previous with
  | nil => exact ⟨[], previous, by simp, fun text rest => rfl⟩
  | cons segment more ih =>
      obtain ⟨written, neighbour, isSome, split⟩ := ih (some segment)
      have nextStatic : ∃ next, ∀ (text : String) (rest : List Segment),
          segment.write previous (more ++ .static text :: rest).head? =
            segment.write previous next := by
        cases more with
        | nil => exact ⟨some (.static ""), fun text rest =>
            Segment.write_before_static previous segment text ""⟩
        | cons second later => exact ⟨some second, fun text rest => rfl⟩
      obtain ⟨next, same⟩ := nextStatic
      refine ⟨segment.write previous next ++ written, neighbour, by simpa using isSome, ?_⟩
      intro text rest
      rw [List.cons_append, writeFrom, same, split, List.append_assoc]

theorem bare_iff (text : String) :
    text = "" ∨ text = "/" ↔ text.toList = [] ∨ text.toList = ['/'] := by
  rw [← String.toList_inj, ← String.toList_inj]
  rfl

theorem writeFrom_static (previous : Option Segment) (text : String) (rest : List Segment) :
    writeFrom previous (.static text :: rest) =
      (if previous.any Segment.isStatic then [] else ['\'']) ++
        (seam previous.isSome ++ (trim (!previous.isSome) rest.head?.isNone text.toList ++
          (closing rest.head? ++ writeFrom (some (.static text)) rest))) := by
  simp only [writeFrom, Segment.write_static, List.append_assoc]

theorem writeFrom_static_static (previous : Option Segment) (first second : String)
    (rest : List Segment) :
    writeFrom previous (.static first :: .static second :: rest) =
      (if previous.any Segment.isStatic then [] else ['\'']) ++
        (seam previous.isSome ++ (trim (!previous.isSome) false first.toList ++
          '/' :: trim false rest.head?.isNone second.toList ++
            (closing rest.head? ++ writeFrom (some (.static second)) rest))) := by
  rw [writeFrom_static, writeFrom_static]
  simp [closing, seam, Segment.isStatic]

/-- Two fixed segments side by side may be written as one in every path in which neither
is a lone slash, or nothing, with a neighbour on its other side, and in no other path. -/
theorem text_merge_iff (before after : List Segment) (first second : String) :
    Path.text ⟨before ++ .static first :: .static second :: after⟩ =
        Path.text ⟨before ++ .static (merged first second) :: after⟩ ↔
      (first = "" ∨ first = "/" → before = []) ∧ (second = "" ∨ second = "/" → after = []) := by
  obtain ⟨written, neighbour, isSome, split⟩ := exists_writeFrom_append_static none before
  have alone : (!neighbour.isSome) = before.isEmpty := by simp [isSome]
  have ended : after.head?.isNone = after.isEmpty := by cases after <;> rfl
  have middle : (merged first second).toList =
      dropTrailingSlash first.toList ++ '/' :: dropLeadingSlash second.toList :=
    String.toList_ofList
  rw [text, text, String.ofList_inj, write, write, split, split, writeFrom_static_static,
    writeFrom_static, writeFrom_behind_static second (merged first second), alone, ended, middle]
  simp only [List.append_cancel_left_eq, List.append_cancel_right_eq]
  rw [eq_comm, trim_merged_iff, ← bare_iff, ← bare_iff, List.isEmpty_iff, List.isEmpty_iff]

example : ((ofText "a/").push "/b").text = (ofText "a/b").text := by decide

end AccessRules.Path
