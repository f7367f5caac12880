import AccessRules.Path
import Mathlib.Data.List.Chain

namespace AccessRules.Path

/-! Paths as pieces with joining operators between them.

The segments of a path fall into parts, the longest runs of fixed segments and the
single expressions, and every part is written as one piece. An expression writes
an operator on each side where it has a neighbour and a fixed segment writes none,
so the pieces are joined by one operator each as long as no two expressions meet.
-/

/-- Fixed segments side by side, or one expression. -/
inductive Part where
  | run (texts : List String)
  | expression (text : String)
deriving DecidableEq, Repr

namespace Part

def isRun : Part → Bool
  | .run _ => true
  | .expression _ => false

def segments : Part → List Segment
  | .run texts => texts.map .static
  | .expression text => [.dynamic text]

/-- Puts fixed text in front, into the first run if the parts start with one. -/
def extend (text : String) : List Part → List Part
  | .run texts :: later => .run (text :: texts) :: later
  | later => .run [text] :: later

def ofSegments : List Segment → List Part
  | [] => []
  | .static text :: rest => extend text (ofSegments rest)
  | .dynamic text :: rest => .expression text :: ofSegments rest

/-- Parts that make up the segments, with runs that cannot be longer. -/
structure Covers (parts : List Part) (segments : List Segment) : Prop where
  segments_eq : parts.flatMap Part.segments = segments
  nonempty : Part.run [] ∉ parts
  maximal : parts.IsChain fun first second => first.isRun = true → second.isRun = false

theorem extend_eq_run (text : String) (parts : List Part) :
    ∃ texts later, extend text parts = .run (text :: texts) :: later := by
  unfold extend
  split
  · exact ⟨_, _, rfl⟩
  · exact ⟨_, _, rfl⟩

theorem Covers.extend {parts : List Part} {segments : List Segment}
    (covers : Covers parts segments) (text : String) :
    Covers (extend text parts) (.static text :: segments) := by
  obtain ⟨same, nonempty, maximal⟩ := covers
  cases parts with
  | nil =>
      have none : segments = [] := by simpa using same.symm
      subst none
      exact ⟨rfl, by simp [Part.extend], .singleton _⟩
  | cons part later =>
      cases part with
      | run texts =>
          refine ⟨?_, ?_, ?_⟩
          · simpa [Part.extend, Part.segments] using same
          · simpa [Part.extend] using fun absent => nonempty (List.mem_cons_of_mem _ absent)
          · rw [List.isChain_cons] at maximal
            exact List.isChain_cons.mpr maximal
      | expression first =>
          refine ⟨?_, ?_, ?_⟩
          · simpa [Part.extend, Part.segments] using same
          · simpa [Part.extend] using nonempty
          · exact .cons_cons (fun _ => rfl) maximal

theorem Covers.expression {parts : List Part} {segments : List Segment}
    (covers : Covers parts segments) (text : String) :
    Covers (.expression text :: parts) (.dynamic text :: segments) := by
  obtain ⟨same, nonempty, maximal⟩ := covers
  refine ⟨?_, ?_, ?_⟩
  · simpa [Part.segments] using same
  · simpa using nonempty
  · exact List.isChain_cons.mpr ⟨fun _ _ run => by simp [isRun] at run, maximal⟩

theorem covers_ofSegments (segments : List Segment) : Covers (ofSegments segments) segments := by
  induction segments with
  | nil => exact ⟨rfl, List.not_mem_nil, .nil⟩
  | cons segment rest ih =>
      cases segment with
      | static text => exact ih.extend text
      | dynamic text => exact ih.expression text

end Part

inductive Piece where
  | quoted (content : List Char)
  | expression (text : String)
deriving DecidableEq, Repr

def seam (neighbour : Bool) : List Char := if neighbour then ['/'] else []

/-- What a run holds between its quotes, when other parts stand before and after it. -/
def runContent (before after : Bool) : List String → List Char
  | [] => []
  | [text] => seam before ++ trim (!before) (!after) text.toList ++ seam after
  | text :: later => seam before ++ trim (!before) false text.toList ++ runContent true after later

namespace Piece

def isQuoted : Piece → Bool
  | .quoted _ => true
  | .expression _ => false

def write : Piece → List Char
  | .quoted content => '\'' :: (content ++ ['\''])
  | .expression text => text.toList

def text (piece : Piece) : String := String.ofList piece.write

def ofPart (before after : Bool) : Part → Piece
  | .run texts => .quoted (runContent before after texts)
  | .expression text => .expression text

/-- The pieces of parts in order, when `before` tells whether a part stands in front. -/
def ofParts : Bool → List Part → List Piece
  | _, [] => []
  | before, part :: rest => ofPart before (!rest.isEmpty) part :: ofParts true rest

def joint : Piece → Piece → List Char
  | .expression _, .expression _ => joiner ++ joiner
  | _, _ => joiner

def joined : List Piece → List Char
  | [] => []
  | [piece] => piece.write
  | first :: second :: rest => first.write ++ joint first second ++ joined (second :: rest)

end Piece

/-- The quote that a fixed segment leaves out after another one. -/
def opening (previous next : Option Segment) : List Char :=
  if previous.any Segment.isStatic && next.any Segment.isStatic then ['\''] else []

/-- The operator that an expression writes in front of itself. -/
def leading (previous next : Option Segment) : List Char :=
  if previous.isSome && next.any (!·.isStatic) then joiner else []

/-- What a fixed segment writes behind its text. -/
def closing : Option Segment → List Char
  | none => ['\'']
  | some (.static _) => []
  | some (.dynamic _) => ['/', '\'']

theorem Segment.write_static (previous next : Option Segment) (text : String) :
    Segment.write previous next (.static text) =
      (if previous.any Segment.isStatic then [] else ['\'']) ++
        (seam previous.isSome ++ (trim (!previous.isSome) next.isNone text.toList ++
          closing next)) := by
  rcases next with _ | (_ | _) <;> simp [write, seam, closing]

namespace Piece

theorem joined_quoted_cons (content : List Char) (pieces : List Piece) :
    joined (.quoted content :: pieces) =
      '\'' :: (content ++ '\'' :: if pieces.isEmpty then [] else joiner ++ joined pieces) := by
  cases pieces <;> simp [joined, write, joint]

/-- An expression writes the operator behind it, and what follows writes its own. -/
theorem joined_expression_ofSegments (text : String) (rest : List Segment) :
    joined (.expression text :: ofParts true (Part.ofSegments rest)) =
      text.toList ++ ((if rest.head?.isSome then joiner else []) ++
        (leading (some (.dynamic text)) rest.head? ++
          joined (ofParts true (Part.ofSegments rest)))) := by
  cases rest with
  | nil => simp [Part.ofSegments, ofParts, joined, write, leading]
  | cons next more =>
      cases next with
      | static later =>
          obtain ⟨texts, parts, same⟩ := Part.extend_eq_run later (Part.ofSegments more)
          simp [Part.ofSegments, same, ofParts, ofPart, joined, write, joint, leading,
            Segment.isStatic]
      | dynamic later =>
          simp [Part.ofSegments, ofParts, ofPart, joined, write, joint, leading, Segment.isStatic]

/-- A fixed segment leaves the closing quote to a fixed segment behind it, and the
operator to an expression. -/
theorem joined_extend_ofSegments (before : Bool) (text : String) {rest : List Segment}
    {written : List Char}
    (follows : opening (some (.static text)) rest.head? ++ written =
      leading (some (.static text)) rest.head? ++ joined (ofParts true (Part.ofSegments rest))) :
    joined (ofParts before (Part.extend text (Part.ofSegments rest))) =
      '\'' :: (seam before ++ (trim (!before) rest.head?.isNone text.toList ++
        (closing rest.head? ++ written))) := by
  cases rest with
  | nil =>
      have nothing : written = [] := by
        simpa [opening, leading, Part.ofSegments, ofParts, joined] using follows
      simp [Part.ofSegments, Part.extend, ofParts, ofPart, runContent, joined, write, seam,
        closing, nothing]
  | cons next more =>
      cases next with
      | static later =>
          obtain ⟨texts, parts, same⟩ := Part.extend_eq_run later (Part.ofSegments more)
          have unquoted : written = runContent true (!parts.isEmpty) (later :: texts) ++
              '\'' :: if (ofParts true parts).isEmpty then [] else
                joiner ++ joined (ofParts true parts) := by
            simpa [opening, leading, Segment.isStatic, Part.ofSegments, same, ofParts, ofPart,
              joined_quoted_cons] using follows
          rw [Part.ofSegments, same, Part.extend]
          simp [ofParts, ofPart, joined_quoted_cons, runContent, closing, unquoted]
      | dynamic later =>
          have operated : written =
              joiner ++ joined (ofParts true (Part.ofSegments (.dynamic later :: more))) := by
            simpa [opening, leading, Segment.isStatic] using follows
          simp [Part.ofSegments, Part.extend, ofParts, ofPart, joined_quoted_cons, runContent,
            closing, seam, operated]

end Piece

theorem writeFrom_eq_joined (previous : Option Segment) (segments : List Segment) :
    opening previous segments.head? ++ writeFrom previous segments =
      leading previous segments.head? ++
        Piece.joined (Piece.ofParts previous.isSome (Part.ofSegments segments)) := by
  -- The segment in front tells on the next one: behind a fixed segment a fixed one leaves
  -- out its quote, and behind any segment an expression adds an operator.
  induction segments generalizing previous with
  | nil => simp [opening, leading, writeFrom, Part.ofSegments, Piece.ofParts, Piece.joined]
  | cons segment rest ih =>
      cases segment with
      | static text =>
          have opened : opening previous (some (.static text)) ++
              (if previous.any Segment.isStatic then [] else ['\'']) = ['\''] := by
            cases found : previous.any Segment.isStatic <;>
              simp [opening, found, Segment.isStatic]
          have unled : leading previous (some (.static text)) = [] := by
            simp [leading, Segment.isStatic]
          have step := Piece.joined_extend_ofSegments previous.isSome text (ih _)
          simp only [List.head?_cons, Part.ofSegments, step, unled, writeFrom,
            Segment.write_static, ← List.append_assoc, opened]
          rfl
      | dynamic text =>
          have unopened : opening previous (some (.dynamic text)) = [] := by
            simp [opening, Segment.isStatic]
          have led : leading previous (some (.dynamic text)) =
              if previous.isSome then joiner else [] := by
            simp [leading, Segment.isStatic]
          have follows := ih (some (.dynamic text))
          rw [show opening (some (.dynamic text)) rest.head? = [] from rfl,
            List.nil_append] at follows
          simp only [List.head?_cons, writeFrom, Segment.write, unopened, led, follows,
            Part.ofSegments, Piece.ofParts, Piece.ofPart, Piece.joined_expression_ofSegments,
            List.nil_append, List.append_assoc, Option.isSome_some]

def Segment.Apart (first second : Segment) : Prop := first.isStatic ∨ second.isStatic

instance : DecidableRel Segment.Apart := fun first second =>
  inferInstanceAs (Decidable (first.isStatic ∨ second.isStatic))

namespace Piece

def Apart (first second : Piece) : Prop := first.isQuoted ∨ second.isQuoted

theorem isChain_quoted_cons (content : List Char) (pieces : List Piece) :
    (quoted content :: pieces).IsChain Apart ↔ pieces.IsChain Apart := by
  simp [List.isChain_cons, Apart, isQuoted]

theorem isChain_ofParts_extend (before : Bool) (text : String) (parts : List Part) :
    (ofParts before (Part.extend text parts)).IsChain Apart ↔
      (ofParts true parts).IsChain Apart := by
  rcases parts with _ | ⟨_ | _, later⟩ <;>
    simp only [Part.extend, ofParts, ofPart, isChain_quoted_cons]

/-- Two expressions meet as pieces exactly where they meet as segments. -/
theorem isChain_ofSegments_iff (before : Bool) (segments : List Segment) :
    (ofParts before (Part.ofSegments segments)).IsChain Apart ↔
      segments.IsChain Segment.Apart := by
  induction segments generalizing before with
  | nil => simp [Part.ofSegments, ofParts]
  | cons segment rest ih =>
      cases segment with
      | static text =>
          rw [Part.ofSegments, isChain_ofParts_extend, ih]
          simp [List.isChain_cons, Segment.Apart, Segment.isStatic]
      | dynamic text =>
          rw [Part.ofSegments, ofParts, ofPart, List.isChain_cons, List.isChain_cons, ih]
          refine and_congr_left fun _ => ?_
          rcases rest with _ | ⟨next | next, more⟩
          · simp [Part.ofSegments, ofParts]
          · obtain ⟨texts, later, same⟩ := Part.extend_eq_run next (Part.ofSegments more)
            simp [Part.ofSegments, same, ofParts, ofPart, Apart, isQuoted, Segment.Apart,
              Segment.isStatic]
          · simp [Part.ofSegments, ofParts, ofPart, Apart, isQuoted, Segment.Apart,
              Segment.isStatic]

theorem joint_of_apart {first second : Piece} (apart : Apart first second) :
    joint first second = joiner := by
  rcases first with _ | _ <;> rcases second with _ | _ <;>
    simp [joint, Apart, isQuoted] at apart ⊢

theorem joint_of_not_apart {first second : Piece} (meet : ¬ Apart first second) :
    joint first second = joiner ++ joiner := by
  rcases first with _ | _ <;> rcases second with _ | _ <;>
    simp [joint, Apart, isQuoted] at meet ⊢

theorem length_intercalate_le (pieces : List Piece) :
    (joiner.intercalate (pieces.map write)).length ≤ (joined pieces).length := by
  induction pieces with
  | nil => simp [joined]
  | cons first rest ih =>
      cases rest with
      | nil => simp [joined]
      | cons second later =>
          have wide : joiner.length ≤ (joint first second).length := by
            by_cases apart : Apart first second
            · rw [joint_of_apart apart]
            · simp [joint_of_not_apart apart]
          simp only [List.map_cons, List.intercalate_cons_cons, joined, List.length_append]
            at ih ⊢
          omega

/-- One operator stands between neighbours exactly when no two expressions meet:
where they do, both write one. -/
theorem joined_eq_intercalate_iff (pieces : List Piece) :
    joined pieces = joiner.intercalate (pieces.map write) ↔ pieces.IsChain Apart := by
  induction pieces with
  | nil => simp [joined]
  | cons first rest ih =>
      cases rest with
      | nil => simp [joined]
      | cons second later =>
          rw [List.isChain_cons_cons, ← ih]
          simp only [joined, List.map_cons, List.intercalate_cons_cons, List.append_assoc,
            List.append_cancel_left_eq]
          by_cases apart : Apart first second
          · simp [joint_of_apart apart, apart]
          · refine iff_of_false (fun same => ?_) (fun both => apart both.1)
            -- the doubled operator is too long for the rest to make up for it
            have shorter := length_intercalate_le (second :: later)
            have lengths := congrArg List.length same
            have operator : 0 < joiner.length := by decide
            simp only [joint_of_not_apart apart, List.length_append, List.map_cons]
              at lengths shorter
            omega

theorem write_infix_joined {piece : Piece} {pieces : List Piece} (member : piece ∈ pieces) :
    piece.write <:+: joined pieces := by
  induction pieces with
  | nil => contradiction
  | cons first rest ih =>
      cases rest with
      | nil => simp_all [joined]
      | cons second later =>
          rw [joined]
          rcases List.mem_cons.mp member with rfl | found
          · exact ⟨[], _, List.append_assoc _ _ _ |>.symm⟩
          · exact (ih found).trans (List.suffix_append _ _).isInfix

end Piece

def parts (path : Path) : List Part := Part.ofSegments path.segments

def pieces (path : Path) : List Piece := Piece.ofParts false path.parts

theorem write_eq_joined (path : Path) : path.write = Piece.joined path.pieces := by
  have whole := writeFrom_eq_joined none path.segments
  simp only [opening, leading, Option.any_none, Option.isSome_none, Bool.false_and,
    Bool.false_eq_true, if_false, List.nil_append] at whole
  exact whole

theorem text_eq_intercalate_iff (path : Path) :
    path.text = " + ".intercalate (path.pieces.map Piece.text) ↔
      path.segments.IsChain Segment.Apart := by
  have same : (path.pieces.map Piece.text).map String.toList = path.pieces.map Piece.write := by
    simp [Piece.text]
  rw [← String.toList_inj, String.toList_intercalate, same, text, String.toList_ofList,
    write_eq_joined, ← Piece.isChain_ofSegments_iff false]
  exact Piece.joined_eq_intercalate_iff path.pieces

/-- Every path is its pieces in order with operators between them, and between any two
neighbours stands one operator exactly when no two expressions are neighbours. -/
theorem text_joins_pieces (path : Path) :
    Part.Covers path.parts path.segments ∧
      path.text = String.ofList (Piece.joined path.pieces) ∧
      (path.text = " + ".intercalate (path.pieces.map Piece.text) ↔
        path.segments.IsChain Segment.Apart) := by
  have written : path.text = String.ofList (Piece.joined path.pieces) := by
    rw [text, write_eq_joined]
  exact ⟨Part.covers_ofSegments path.segments, written, text_eq_intercalate_iff path⟩

theorem text_of_two_expressions :
    ¬ ∀ path : Path, path.text = " + ".intercalate (path.pieces.map Piece.text) := by
  intro always
  have apart := (text_eq_intercalate_iff ((empty.resolve "a").resolve "b")).mp (always _)
  revert apart
  decide

example : ((empty.resolve "a").resolve "b").text = "a +  + b" := by decide

end AccessRules.Path
