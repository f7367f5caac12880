import AccessRules.Proofs.Path.Components
import AccessRules.Proofs.Path.Merging

namespace AccessRules.Path

def Doubled (text : List Char) : Prop := ['/', '/'] <:+: text

theorem not_doubled_nil : ¬ Doubled [] := by
  simp [Doubled]

theorem doubled_cons_iff (char : Char) (rest : List Char) :
    Doubled (char :: rest) ↔ (char = '/' ∧ rest.head? = some '/') ∨ Doubled rest := by
  have start : ['/', '/'] <+: char :: rest ↔ char = '/' ∧ rest.head? = some '/' := by
    rw [List.cons_prefix_cons, eq_comm]
    cases rest <;> simp [eq_comm]
  rw [Doubled, Doubled, List.infix_cons_iff, start]

theorem doubled_append_iff (left right : List Char) :
    Doubled (left ++ right) ↔
      Doubled left ∨ Doubled right ∨ (left.getLast? = some '/' ∧ right.head? = some '/') := by
  induction left with
  | nil => simp [not_doubled_nil]
  | cons char rest ih =>
      rw [List.cons_append, doubled_cons_iff, doubled_cons_iff, ih]
      cases rest with
      | nil => grind [not_doubled_nil]
      | cons next more =>
          rw [List.getLast?_cons_cons, List.cons_append, List.head?_cons, List.head?_cons]
          tauto

/-- Two slashes in a row stand on one side of a slash that is counted to both. -/
theorem doubled_append_slash_cons (left right : List Char) :
    Doubled (left ++ '/' :: right) ↔ Doubled (left ++ ['/']) ∨ Doubled ('/' :: right) := by
  have lone : ¬ Doubled ['/'] := by simp [doubled_cons_iff, not_doubled_nil]
  rw [doubled_append_iff, doubled_append_iff, List.head?_cons, List.head?_cons]
  tauto

theorem doubled_slash_cons_dropLeadingSlash (text : List Char) :
    Doubled ('/' :: dropLeadingSlash text) ↔ Doubled text := by
  cases text with
  | nil => simp [dropLeadingSlash, doubled_cons_iff]
  | cons char rest =>
      by_cases slash : char = '/'
      · rw [slash]
        rfl
      · simp [dropLeadingSlash_of_ne slash, doubled_cons_iff '/', slash]

theorem doubled_dropTrailingSlash_append_slash (text : List Char) :
    Doubled (dropTrailingSlash text ++ ['/']) ↔ Doubled text := by
  rcases List.eq_nil_or_concat text with rfl | ⟨init, char, rfl⟩
  · simp [dropTrailingSlash, doubled_cons_iff]
  · rw [List.concat_eq_append]
    by_cases slash : char = '/'
    · rw [slash, dropTrailingSlash_append_slash]
    · rw [dropTrailingSlash_append_of_ne slash, doubled_append_iff _ ['/'], doubled_cons_iff '/' []]
      simp [slash, not_doubled_nil]

def seamed (before after : Bool) (text : List Char) : List Char :=
  seam before ++ trim (!before) (!after) text ++ seam after

theorem doubled_seamed_iff (before after : Bool) (text : List Char) :
    Doubled (seamed before after text) ↔
      Doubled text ∨ ((text = [] ∨ text = ['/']) ∧ before = true ∧ after = true) := by
  cases before with
  | false =>
      cases after with
      | false => simp [seamed, seam, trim]
      | true => simpa [seamed, seam, trim] using doubled_dropTrailingSlash_append_slash text
  | true =>
      cases after with
      | false => simpa [seamed, seam, trim] using doubled_slash_cons_dropLeadingSlash text
      | true =>
          have opened : seamed true true text =
              '/' :: (dropTrailingSlash (dropLeadingSlash text) ++ ['/']) := rfl
          rw [opened, ← dropLeadingSlash_eq_nil_iff, ← doubled_slash_cons_dropLeadingSlash text]
          by_cases empty : dropLeadingSlash text = []
          · rw [empty]
            simp [dropTrailingSlash, doubled_cons_iff]
          · have closed : '/' :: (dropTrailingSlash (dropLeadingSlash text) ++ ['/']) =
                dropTrailingSlash ('/' :: dropLeadingSlash text) ++ ['/'] := by
              exact congrArg (· ++ ['/']) (dropTrailingSlash_append empty ['/']).symm
            rw [closed, doubled_dropTrailingSlash_append_slash]
            simp [empty]

/-- The slash between two texts is a seam of both. -/
theorem doubled_runContent_cons (before after : Bool) (text next : String) (more : List String) :
    Doubled (runContent before after (text :: next :: more)) ↔
      Doubled (seamed before true text.toList) ∨
        Doubled (runContent true after (next :: more)) := by
  obtain ⟨rest, starts⟩ := runContent_eq_cons after next more
  rw [runContent_cons_cons, starts, doubled_append_slash_cons]
  rfl

namespace Piece

def Doubled (pieces : List Piece) : Prop :=
  ∃ content, .quoted content ∈ pieces ∧ Path.Doubled content

theorem doubled_quoted_cons (content : List Char) (pieces : List Piece) :
    Doubled (.quoted content :: pieces) ↔ Path.Doubled content ∨ Doubled pieces := by
  simp [Doubled, or_and_right, exists_or]

theorem doubled_expression_cons (text : String) (pieces : List Piece) :
    Doubled (.expression text :: pieces) ↔ Doubled pieces := by
  simp [Doubled]

/-- A text in front of other parts is written between its seams. -/
theorem doubled_extend_iff (before : Bool) (text : String) {parts : List Part}
    (nonempty : Part.run [] ∉ parts) :
    Doubled (ofParts before (Part.extend text parts)) ↔
      Path.Doubled (seamed before (!parts.isEmpty) text.toList) ∨ Doubled (ofParts true parts) := by
  cases parts with
  | nil => exact doubled_quoted_cons (seamed before false text.toList) []
  | cons part later =>
      cases part with
      | expression first =>
          exact doubled_quoted_cons (seamed before true text.toList)
            (ofParts true (.expression first :: later))
      | run texts =>
          cases texts with
          | nil => exact absurd List.mem_cons_self nonempty
          | cons next more =>
              rw [Part.extend, ofParts, ofParts, ofPart, ofPart, doubled_quoted_cons,
                doubled_quoted_cons, doubled_runContent_cons, or_assoc]
              rfl

end Piece

/-- Whether a text of the segments doubles a slash: one that does itself, or a lone slash
or nothing between two neighbours. -/
def AsksDouble (before : Bool) (segments : List Segment) : Prop :=
  ∃ left text right, segments = left ++ .static text :: right ∧
    (Doubled text.toList ∨
      ((text = "" ∨ text = "/") ∧ (before = true ∨ left ≠ []) ∧ right ≠ []))

theorem asksDouble_cons_iff (before : Bool) (segment : Segment) (rest : List Segment) :
    AsksDouble before (segment :: rest) ↔
      (∃ text, segment = .static text ∧
        (Doubled text.toList ∨ ((text = "" ∨ text = "/") ∧ before = true ∧ rest ≠ []))) ∨
      AsksDouble true rest := by
  constructor
  · rintro ⟨left, text, right, same, asks⟩
    cases left with
    | nil =>
        obtain ⟨rfl, rfl⟩ := List.cons.inj same
        exact .inl ⟨text, rfl, by simpa using asks⟩
    | cons first more =>
        obtain ⟨rfl, rfl⟩ := List.cons.inj same
        exact .inr ⟨more, text, right, rfl, by simpa using asks⟩
  · rintro (⟨text, rfl, asks⟩ | ⟨left, text, right, rfl, asks⟩)
    · exact ⟨[], text, rest, rfl, by simpa using asks⟩
    · exact ⟨segment :: left, text, right, rfl, by simpa using asks⟩

theorem isEmpty_ofSegments (segments : List Segment) :
    (Part.ofSegments segments).isEmpty = segments.isEmpty := by
  cases segments with
  | nil => rfl
  | cons segment rest =>
      cases segment with
      | dynamic text => rfl
      | static text =>
          obtain ⟨texts, later, same⟩ := Part.extend_eq_run text (Part.ofSegments rest)
          rw [Part.ofSegments, same]
          rfl

theorem doubled_ofSegments_iff (before : Bool) (segments : List Segment) :
    Piece.Doubled (Piece.ofParts before (Part.ofSegments segments)) ↔
      AsksDouble before segments := by
  induction segments generalizing before with
  | nil => simp [Part.ofSegments, Piece.ofParts, Piece.Doubled, AsksDouble]
  | cons segment rest ih =>
      rw [asksDouble_cons_iff, ← ih]
      cases segment with
      | static text =>
          have nonempty := (Part.covers_ofSegments rest).nonempty
          rw [Part.ofSegments, Piece.doubled_extend_iff before text nonempty, doubled_seamed_iff,
            isEmpty_ofSegments, ← bare_iff]
          simp
      | dynamic text =>
          rw [Part.ofSegments, Piece.ofParts, Piece.ofPart, Piece.doubled_expression_cons]
          simp

/-- A literal of a path holds two slashes in a row exactly when a fixed text does, or when
a fixed segment with neighbours on both sides is a lone slash or empty. -/
theorem doubled_literal_iff (path : Path) :
    path.text = String.ofList (Piece.joined path.pieces) ∧
      ((∃ content, .quoted content ∈ path.pieces ∧ ['/', '/'] <:+: content) ↔
        (∃ text, .static text ∈ path.segments ∧ ['/', '/'] <:+: text.toList) ∨
          ∃ before text after, path.segments = before ++ .static text :: after ∧
            before ≠ [] ∧ after ≠ [] ∧ (text = "" ∨ text = "/")) := by
  refine ⟨by rw [text, write_eq_joined], (doubled_ofSegments_iff false path.segments).trans ?_⟩
  constructor
  · rintro ⟨before, text, after, same, doubled | ⟨bare, preceded, followed⟩⟩
    · exact .inl ⟨text, by simp [same], doubled⟩
    · exact .inr ⟨before, text, after, same, by simpa using preceded, followed, bare⟩
  · rintro (⟨text, member, doubled⟩ | ⟨before, text, after, same, preceded, followed, bare⟩)
    · obtain ⟨before, after, same⟩ := List.append_of_mem member
      exact ⟨before, text, after, same, .inl doubled⟩
    · exact ⟨before, text, after, same, .inr ⟨bare, .inr preceded, followed⟩⟩

example : ((((ofText "/").push "a/").resolve "x").push "/").text = "'/a/' + x + '/'" := by decide

example : ((((ofText "a").resolve "x").push "/").resolve "y").text = "'a/' + x + '//' + y" := by
  decide

end AccessRules.Path
