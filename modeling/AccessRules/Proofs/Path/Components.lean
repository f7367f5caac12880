import AccessRules.Proofs.Path.Pieces

namespace AccessRules.Path

def components (text : List Char) : List (List Char) :=
  (text.splitOn '/').filter fun component => !component.isEmpty

theorem components_nil : components [] = [] := by
  simp [components]

theorem components_append_slash (left right : List Char) :
    components (left ++ '/' :: right) = components left ++ components right := by
  simp [components, List.splitOn_append_cons_self]

theorem components_slash_cons (text : List Char) : components ('/' :: text) = components text := by
  have split := components_append_slash [] text
  simpa [components_nil] using split

theorem components_append_single (text : List Char) :
    components (text ++ ['/']) = components text := by
  rw [components_append_slash, components_nil, List.append_nil]

theorem components_dropLeadingSlash (text : List Char) :
    components (dropLeadingSlash text) = components text := by
  unfold dropLeadingSlash
  split
  · rw [components_slash_cons]
  · rfl

theorem components_dropTrailingSlash (text : List Char) :
    components (dropTrailingSlash text) = components text := by
  unfold dropTrailingSlash
  split
  · rename_i ends
    have whole : text.dropLast ++ ['/'] = text := List.dropLast_append_getLast? _ ends
    rw [← components_append_single, whole]
  · rfl

theorem components_trim (first last : Bool) (text : List Char) :
    components (trim first last text) = components text := by
  cases first <;> cases last <;>
    simp [trim, components_dropLeadingSlash, components_dropTrailingSlash]

theorem components_seam_append (neighbour : Bool) (text : List Char) :
    components (seam neighbour ++ text) = components text := by
  cases neighbour
  · rfl
  · exact components_slash_cons text

theorem components_append_seam (neighbour : Bool) (text : List Char) :
    components (text ++ seam neighbour) = components text := by
  cases neighbour
  · rw [seam, if_neg Bool.false_ne_true, List.append_nil]
  · exact components_append_single text

/-- After another text a run goes on with a slash. -/
theorem runContent_eq_cons (after : Bool) (text : String) (later : List String) :
    ∃ rest, runContent true after (text :: later) = '/' :: rest := by
  cases later with
  | nil => exact ⟨_, rfl⟩
  | cons next more => exact ⟨_, rfl⟩

theorem runContent_cons_cons (before after : Bool) (text next : String) (more : List String) :
    runContent before after (text :: next :: more) =
      seam before ++ trim (!before) false text.toList ++ runContent true after (next :: more) :=
  rfl

theorem components_runContent (before after : Bool) (texts : List String) :
    components (runContent before after texts) =
      texts.flatMap fun text => components text.toList := by
  induction texts generalizing before with
  | nil => exact components_nil
  | cons text later ih =>
      cases later with
      | nil =>
          simp [runContent, components_append_seam, components_seam_append, components_trim]
      | cons next more =>
          specialize ih true
          obtain ⟨rest, starts⟩ := runContent_eq_cons after next more
          rw [starts, components_slash_cons] at ih
          rw [runContent_cons_cons, starts, components_append_slash, components_seam_append,
            components_trim, ih]
          rfl

theorem getLast?_runContent (before : Bool) {texts : List String} (nonempty : texts ≠ []) :
    (runContent before true texts).getLast? = some '/' := by
  induction texts generalizing before with
  | nil => contradiction
  | cons text later ih =>
      cases later with
      | nil => simp [runContent, seam]
      | cons next more => simp [runContent, List.getLast?_append, ih true (List.cons_ne_nil _ _)]

theorem Piece.length_ofParts (before : Bool) (parts : List Part) :
    (ofParts before parts).length = parts.length := by
  induction parts generalizing before with
  | nil => rfl
  | cons part rest ih => simp [ofParts, ih]

theorem Piece.getElem?_ofParts (flag : Bool) (before after : List Part) (part : Part) :
    (ofParts flag (before ++ part :: after))[before.length]? =
      some (ofPart (flag || !before.isEmpty) (!after.isEmpty) part) := by
  induction before generalizing flag with
  | nil => simp [ofParts]
  | cons first rest ih => simpa [ofParts] using ih true

/-- What a literal keeps of the texts of its run. A slash stands at each end where the
run has a neighbour, which is an expression, as no run stands beside another one. -/
structure Keeps (before after : List Part) (texts : List String) (content : List Char) :
    Prop where
  components_eq : components content = texts.flatMap fun text => components text.toList
  opened : before ≠ [] → content.head? = some '/'
  closed : after ≠ [] → content.getLast? = some '/'

theorem keeps_runContent (before after : List Part) {texts : List String}
    (nonempty : texts ≠ []) :
    Keeps before after texts (runContent (!before.isEmpty) (!after.isEmpty) texts) := by
  refine ⟨components_runContent _ _ texts, ?_, ?_⟩
  · intro preceded
    obtain ⟨text, later, rfl⟩ := List.exists_cons_of_ne_nil nonempty
    obtain ⟨rest, starts⟩ := runContent_eq_cons (!after.isEmpty) text later
    have flag : (!before.isEmpty) = true := by simpa using preceded
    rw [flag, starts, List.head?_cons]
  · intro followed
    have flag : (!after.isEmpty) = true := by simpa using followed
    rw [flag]
    exact getLast?_runContent _ nonempty

/-- No component of a fixed segment is lost, merged or split, and a path that is one
fixed segment is written as it is. -/
theorem pieces_keep_components {path : Path} (apart : path.segments.IsChain Segment.Apart) :
    Part.Covers path.parts path.segments ∧
      path.text = " + ".intercalate (path.pieces.map Piece.text) ∧
      path.pieces.length = path.parts.length ∧
      (∀ before text after, path.parts = before ++ .expression text :: after →
        path.pieces[before.length]? = some (.expression text)) ∧
      (∀ before texts after, path.parts = before ++ .run texts :: after →
        ∃ content, path.pieces[before.length]? = some (.quoted content) ∧
          Keeps before after texts content) ∧
      ∀ text, path.segments = [.static text] → path.pieces = [.quoted text.toList] := by
  have covers := Part.covers_ofSegments path.segments
  refine ⟨covers, (text_eq_intercalate_iff path).mpr apart, Piece.length_ofParts _ _, ?_, ?_, ?_⟩
  · intro before text after same
    rw [pieces, same, Piece.getElem?_ofParts]
    rfl
  · intro before texts after same
    have member : Part.run texts ∈ path.parts := by simp [same]
    have nonempty : texts ≠ [] := by
      rintro rfl
      exact covers.nonempty member
    refine ⟨runContent (!before.isEmpty) (!after.isEmpty) texts, ?_, keeps_runContent _ _ nonempty⟩
    rw [pieces, same, Piece.getElem?_ofParts]
    rfl
  · intro text single
    simp [pieces, parts, single, Part.ofSegments, Part.extend, Piece.ofParts, Piece.ofPart,
      runContent, seam, trim]

theorem pieces_keep_components_between_expressions :
    let path := ((((ofText "a/").push "/b//c").resolve "x").push "").resolve "y"
    path.segments.IsChain Segment.Apart ∧
      path.text = " + ".intercalate (path.pieces.map Piece.text) ∧
      ∃ content, path.pieces[2]? = some (.quoted content) ∧ components content = [] ∧
        content.head? = some '/' ∧ content.getLast? = some '/' := by
  intro path
  have apart : path.segments.IsChain Segment.Apart := by decide
  obtain ⟨-, joined, -, -, kept, -⟩ := pieces_keep_components apart
  obtain ⟨content, found, keeps⟩ :=
    kept [.run ["a/", "/b//c"], .expression "x"] [""] [.expression "y"] (by decide)
  refine ⟨apart, joined, content, found, ?_, keeps.opened (by simp), keeps.closed (by simp)⟩
  simpa [components] using keeps.components_eq

end AccessRules.Path
