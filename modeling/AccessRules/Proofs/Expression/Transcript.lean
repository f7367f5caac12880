import AccessRules.Proofs.Expression.Flatten
import AccessRules.Proofs.Path.Pieces

namespace AccessRules

open AccessRules.Path (Piece Segment)

/-- A text of the caller that an expression takes in. -/
inductive Mention where
  | literal (text : String)
  | argument (text : String)
  /-- What a path holds between two quotes. -/
  | fixedPath (content : List Char)
  | pattern (text : String)
deriving DecidableEq, Repr

namespace Mention

/-- What stands between the quotes around a mention. A pattern has none. -/
def content? : Mention → Option (List Char)
  | .literal text => some text.toList
  | .argument text => some text.toList
  | .fixedPath content => some content
  | .pattern _ => none

/-- The mention as it stands in the text of the expression. -/
def written : Mention → List Char
  | .literal text => '\'' :: (text.toList ++ ['\''])
  | .argument text => '\'' :: (text.toList ++ ['\''])
  | .fixedPath content => '\'' :: (content ++ ['\''])
  | .pattern text => text.toList

end Mention

/-- What is reported while something is built, and the texts that went into it. -/
structure Transcript where
  messages : List Message
  mentions : List Mention

namespace Transcript

def empty : Transcript := ⟨[], []⟩

instance : Append Transcript where
  append first second :=
    ⟨first.messages ++ second.messages, first.mentions ++ second.mentions⟩

/-- Texts that nothing is reported of yet. -/
def silent (mentions : List Mention) : Transcript := ⟨[], mentions⟩

end Transcript

def Literal.mentions : Literal → List Mention
  | .string text => [.literal text]
  | _ => []

def Path.mentions (path : Path) : List Mention :=
  path.pieces.filterMap fun
    | .quoted content => some (.fixedPath content)
    | .expression _ => none

namespace Accessor

variable {source target : Stage}

def mentions : Accessor source target → List Mention
  | .search _ argument => [.argument argument]
  | .replace substring replacement => [.argument substring, .argument replacement]
  | .matchPattern pattern => [.pattern pattern]
  | _ => []

def operands : Accessor source target → List Element
  | .evaluate operand => [operand.element]
  | .scope operand => [operand.element]
  | _ => []

def paths : Accessor source target → List Path
  | .child path => [path]
  | .hasChild path => [path]
  | .hasEvery paths => paths
  | _ => []

/-- What the call of the accessor itself reports and takes in. -/
def transcript (accessor : Accessor source target) : Transcript :=
  ⟨accessor.warnings, accessor.mentions⟩

end Accessor

mutual

/-- Elements that can be written down, with what happens meanwhile. Combinators and
conditions are chains of operands and tokens. -/
inductive Made : Element → Transcript → Prop where
  | member (text : String) : Made (.member text) .empty
  | token (symbol : Token) : Made (.token symbol) .empty
  | literal (scalar : Literal) : Made (.literal scalar) (.silent scalar.mentions)
  | chain {elements : List Element} {transcript : Transcript}
      (made : MadeAll elements transcript) : Made (.chain elements) transcript
  | built {stage : Stage} {builder : Builder stage} {transcript : Transcript}
      (built : Built builder transcript) : Made (.chain builder.chain) transcript

inductive MadeAll : List Element → Transcript → Prop where
  | nil : MadeAll [] .empty
  | cons {element : Element} {rest : List Element} {first later : Transcript}
      (made : Made element first) (others : MadeAll rest later) :
      MadeAll (element :: rest) (first ++ later)

/-- Builders that accessors lead to. The arguments of an accessor are made first. -/
inductive Built : {stage : Stage} → Builder stage → Transcript → Prop where
  | start : Built Builder.start .empty
  | step {source target : Stage} {builder : Builder source}
      {transcript placed composed : Transcript} (built : Built builder transcript)
      (accessor : Accessor source target) (operands : MadeAll accessor.operands placed)
      (paths : ComposedAll accessor.paths composed) :
      Built (builder.step accessor) (transcript ++ (placed ++ composed ++ accessor.transcript))

/-- Paths as they are composed. The mentions of a transcript are those of the resolved
expressions; the fixed text is known only of a finished path. -/
inductive ComposedPath : Path → Transcript → Prop where
  | empty : ComposedPath .empty .empty
  | push {path : Path} {transcript : Transcript} (composed : ComposedPath path transcript)
      (text : String) : ComposedPath (path.push text) transcript
  | resolveText {path : Path} {transcript : Transcript}
      (composed : ComposedPath path transcript) (text : String) :
      ComposedPath (path.resolve text) transcript
  | resolveElement {path : Path} {element : Element} {transcript operand : Transcript}
      (composed : ComposedPath path transcript) (made : Made element operand) :
      ComposedPath (path.resolve element.text)
        (transcript ++ ⟨operand.messages ++ element.warnings, operand.mentions⟩)
  | resolvePath {path inner : Path} {transcript other : Transcript}
      (composed : ComposedPath path transcript) (resolved : ComposedPath inner other) :
      ComposedPath (path.resolve inner.text) (transcript ++ (other ++ .silent inner.mentions))

inductive ComposedAll : List Path → Transcript → Prop where
  | nil : ComposedAll [] .empty
  | cons {path : Path} {rest : List Path} {first later : Transcript}
      (composed : ComposedPath path first) (others : ComposedAll rest later) :
      ComposedAll (path :: rest) (first ++ .silent path.mentions ++ later)

end

theorem Atom.text_infix_write {atom : Atom} {atoms : List Atom} (member : atom ∈ atoms)
    (afterMember : Bool) : atom.text.toList <:+: (write afterMember atoms).toList := by
  induction atoms generalizing afterMember with
  | nil => contradiction
  | cons first rest ih =>
      simp only [write, String.toList_append]
      rcases List.mem_cons.mp member with rfl | later
      · exact ⟨_, _, rfl⟩
      · exact (ih later _).trans (List.suffix_append _ _).isInfix

theorem text_infix_intercalate (separator : String) {text : String} {texts : List String}
    (member : text ∈ texts) : text.toList <:+: (separator.intercalate texts).toList := by
  induction texts with
  | nil => contradiction
  | cons first rest ih =>
      cases rest with
      | nil => simp_all
      | cons second later =>
          rw [String.intercalate_cons_cons, String.toList_append, String.toList_append]
          rcases List.mem_cons.mp member with rfl | found
          · exact ⟨[], _, List.append_assoc _ _ _ |>.symm⟩
          · exact (ih found).trans (List.suffix_append _ _).isInfix

namespace Path

theorem expression_infix_writeFrom {text : String} {segments : List Segment}
    (member : .dynamic text ∈ segments) (previous : Option Segment) :
    text.toList <:+: writeFrom previous segments := by
  induction segments generalizing previous with
  | nil => contradiction
  | cons segment rest ih =>
      rw [writeFrom]
      rcases List.mem_cons.mp member with rfl | later
      · rw [Segment.write, List.append_assoc]
        exact ⟨_, _, rfl⟩
      · exact (ih later _).trans (List.suffix_append _ _).isInfix

theorem written_infix_text {path : Path} {mention : Mention} (member : mention ∈ path.mentions) :
    mention.written <:+: path.text.toList := by
  obtain ⟨piece, found, same⟩ := List.mem_filterMap.mp member
  rw [text, String.toList_ofList, write_eq_joined]
  cases piece with
  | expression text => contradiction
  | quoted content =>
      cases same
      exact Piece.write_infix_joined found

end Path

namespace Transcript

variable {first second : Transcript} {texts others : List (List Char)}

def StandsIn (transcript : Transcript) (texts : List (List Char)) : Prop :=
  ∀ mention ∈ transcript.mentions, ∃ text ∈ texts, mention.written <:+: text

theorem standsIn_empty : empty.StandsIn texts := by
  intro mention member
  contradiction

theorem StandsIn.union (left : first.StandsIn texts) (right : second.StandsIn texts) :
    (first ++ second).StandsIn texts := by
  intro mention member
  rcases List.mem_append.mp member with earlier | later
  · exact left mention earlier
  · exact right mention later

theorem StandsIn.within (stands : first.StandsIn texts)
    (inside : ∀ text ∈ texts, ∃ other ∈ others, text <:+: other) : first.StandsIn others := by
  intro mention member
  obtain ⟨text, found, here⟩ := stands mention member
  obtain ⟨other, present, around⟩ := inside text found
  exact ⟨other, present, here.trans around⟩

theorem StandsIn.mono (stands : first.StandsIn texts) (subset : texts ⊆ others) :
    first.StandsIn others :=
  stands.within fun text member => ⟨text, subset member, List.infix_rfl⟩

theorem StandsIn.append (left : first.StandsIn texts) (right : second.StandsIn others) :
    (first ++ second).StandsIn (texts ++ others) :=
  (left.mono (List.subset_append_left _ _)).union (right.mono (List.subset_append_right _ _))

end Transcript

def Atom.texts (atoms : List Atom) : List (List Char) := atoms.map fun atom => atom.text.toList

def Path.resolved (path : Path) : List (List Char) :=
  path.segments.filterMap fun
    | .static _ => none
    | .dynamic text => some text.toList

theorem Path.resolved_push (path : Path) (text : String) :
    (path.push text).resolved = path.resolved := by
  simp [resolved, push]

theorem Path.resolved_resolve (path : Path) (text : String) :
    (path.resolve text).resolved = path.resolved ++ [text.toList] := by
  simp [resolved, resolve]

theorem Path.resolved_infix_text {path : Path} {resolved : List Char}
    (member : resolved ∈ path.resolved) : resolved <:+: path.text.toList := by
  obtain ⟨segment, found, same⟩ := List.mem_filterMap.mp member
  rw [text, String.toList_ofList, write]
  cases segment with
  | static text => contradiction
  | dynamic text =>
      cases same
      exact expression_infix_writeFrom found none

/-- A finished path holds its literals beside what its expressions hold. -/
theorem Path.standsIn_text {path : Path} {transcript : Transcript}
    (stands : transcript.StandsIn path.resolved) :
    (transcript ++ .silent path.mentions).StandsIn [path.text.toList] := by
  have expressions : transcript.StandsIn [path.text.toList] :=
    stands.within fun text member => ⟨_, List.mem_singleton_self _, resolved_infix_text member⟩
  have literals : (Transcript.silent path.mentions).StandsIn [path.text.toList] :=
    fun mention member => ⟨_, List.mem_singleton_self _, written_infix_text member⟩
  exact expressions.union literals

theorem Element.texts_within (element : Element) :
    ∀ text ∈ Atom.texts element.flatten, ∃ other ∈ [element.text.toList], text <:+: other := by
  intro text member
  obtain ⟨atom, found, rfl⟩ := List.mem_map.mp member
  exact ⟨_, List.mem_singleton_self _, Atom.text_infix_write found false⟩

theorem Atom.infix_texts_call {inner : List Char} {arguments : String} (opening : String)
    (inside : inner <:+: arguments.toList) :
    ∃ text ∈ texts [.member (opening ++ arguments ++ ")")], inner <:+: text := by
  refine ⟨(opening ++ arguments ++ ")").toList, List.mem_singleton_self _, ?_⟩
  rw [String.toList_append, String.toList_append]
  exact inside.trans ⟨_, _, rfl⟩

theorem Atom.texts_append (left right : List Atom) :
    texts (left ++ right) = texts left ++ texts right :=
  List.map_append

namespace Accessor

variable {source target : Stage}

theorem written_argument (argument : String) :
    (Mention.argument argument).written = (quoteArgument argument).toList := by
  simp [Mention.written, quoteArgument]

theorem standsIn_transcript (accessor : Accessor source target) :
    accessor.transcript.StandsIn (Atom.texts accessor.atoms) := by
  intro mention member
  cases accessor with
  | search query argument =>
      cases List.mem_singleton.mp member
      exact Atom.infix_texts_call _ (written_argument argument ▸ List.infix_rfl)
  | replace substring replacement =>
      refine Atom.infix_texts_call "replace(" ?_
      rw [String.toList_append, String.toList_append]
      rcases List.mem_cons.mp member with rfl | second
      · rw [written_argument]
        exact (List.prefix_append _ _).isInfix.trans (List.prefix_append _ _).isInfix
      · cases List.mem_singleton.mp second
        rw [written_argument]
        exact (List.suffix_append _ _).isInfix
  | matchPattern pattern =>
      cases List.mem_singleton.mp member
      exact Atom.infix_texts_call "matches(" List.infix_rfl
  | _ => contradiction

theorem paths_within (accessor : Accessor source target) :
    ∀ text ∈ accessor.paths.map fun path => path.text.toList,
      ∃ other ∈ Atom.texts accessor.atoms, text <:+: other := by
  intro text member
  obtain ⟨path, found, rfl⟩ := List.mem_map.mp member
  cases accessor with
  | child argument =>
      cases List.mem_singleton.mp found
      exact Atom.infix_texts_call "child(" List.infix_rfl
  | hasChild argument =>
      cases List.mem_singleton.mp found
      exact Atom.infix_texts_call "hasChild(" List.infix_rfl
  | hasEvery arguments =>
      refine Atom.infix_texts_call "hasChildren(" ?_
      have inner := text_infix_intercalate ", " (List.mem_map_of_mem (f := Path.text) found)
      rw [pathList, String.toList_append, String.toList_append]
      exact inner.trans ⟨_, _, rfl⟩
  | _ => contradiction

theorem flattenAll_operands_subset (accessor : Accessor source target) :
    Element.flattenAll accessor.operands ⊆ accessor.atoms := by
  intro atom member
  cases accessor with
  | evaluate operand => simpa [operands, atoms, Element.flattenAll] using member
  | scope operand =>
      have inner : atom ∈ operand.element.flatten := by
        simpa [operands, Element.flattenAll] using member
      simp [atoms, inner]
  | _ => contradiction

end Accessor

mutual

/-- Every text that went into an element stands in its text. -/
theorem Made.standsIn {element : Element} {transcript : Transcript}
    (made : Made element transcript) : transcript.StandsIn (Atom.texts element.flatten) := by
  match made with
  | .member text => exact Transcript.standsIn_empty
  | .token symbol => exact Transcript.standsIn_empty
  | .literal scalar =>
      intro mention member
      cases scalar with
      | string text =>
          cases List.mem_singleton.mp member
          refine ⟨_, List.mem_singleton_self _, ?_⟩
          simp [Mention.written, Atom.text, Literal.text]
      | _ => contradiction
  | .chain all => exact all.standsIn
  | .built builder => exact builder.standsIn

theorem MadeAll.standsIn {elements : List Element} {transcript : Transcript}
    (made : MadeAll elements transcript) :
    transcript.StandsIn (Atom.texts (Element.flattenAll elements)) := by
  match made with
  | .nil => exact Transcript.standsIn_empty
  | .cons first others =>
      rw [Element.flattenAll, Atom.texts_append]
      exact first.standsIn.append others.standsIn

theorem Built.standsIn {stage : Stage} {builder : Builder stage} {transcript : Transcript}
    (built : Built builder transcript) :
    transcript.StandsIn (Atom.texts builder.chain.flatten) := by
  match built with
  | .start => exact Transcript.standsIn_empty
  | .step earlier accessor operands paths =>
      have placed := operands.standsIn.mono
        (List.map_subset _ accessor.flattenAll_operands_subset)
      have composed := paths.standsIn.within accessor.paths_within
      rw [Builder.step, Accessor.flatten_apply, Atom.texts_append]
      exact earlier.standsIn.append ((placed.union composed).union accessor.standsIn_transcript)

theorem ComposedPath.standsIn {path : Path} {transcript : Transcript}
    (composed : ComposedPath path transcript) : transcript.StandsIn path.resolved := by
  match composed with
  | .empty => exact Transcript.standsIn_empty
  | .push earlier text =>
      rw [Path.resolved_push]
      exact earlier.standsIn
  | .resolveText earlier text =>
      rw [Path.resolved_resolve]
      exact earlier.standsIn.mono (List.subset_append_left _ _)
  | .resolveElement earlier made =>
      rw [Path.resolved_resolve]
      exact earlier.standsIn.append (made.standsIn.within (Element.texts_within _))
  | .resolvePath earlier resolved =>
      rw [Path.resolved_resolve]
      exact earlier.standsIn.append (Path.standsIn_text resolved.standsIn)

theorem ComposedAll.standsIn {paths : List Path} {transcript : Transcript}
    (composed : ComposedAll paths transcript) :
    transcript.StandsIn (paths.map fun path => path.text.toList) := by
  match composed with
  | .nil => exact Transcript.standsIn_empty
  | .cons first others => exact (Path.standsIn_text first.standsIn).append others.standsIn

end

end AccessRules
