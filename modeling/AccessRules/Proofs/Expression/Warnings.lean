import AccessRules.Proofs.Expression.Transcript

namespace AccessRules

namespace Mention

/-- Whether the quotes around the mention hold another one. -/
def HoldsQuote (mention : Mention) : Prop := ∃ content ∈ mention.content?, '\'' ∈ content

def warnings : Mention → List Message
  | .literal text => if Literal.hasQuote text then [.literalQuote text] else []
  | .argument text => if Literal.hasQuote text then [.argumentQuote text] else []
  | .fixedPath _ => []
  | .pattern text => if Text.isPattern text.toList then [] else [.notPattern text]

theorem level_of_mem_warnings {mention : Mention} {message : Message}
    (member : message ∈ mention.warnings) : message.level = .warn := by
  cases mention with
  | fixedPath content => contradiction
  | _ =>
      simp only [warnings] at member
      split at member <;> simp_all [Message.level]

/-- Quotes are noticed everywhere but in fixed path text. -/
theorem HoldsQuote.noticed {mention : Mention} (holds : mention.HoldsQuote) :
    mention.warnings ≠ [] ∨ ∃ content, mention = .fixedPath content ∧ '\'' ∈ content := by
  obtain ⟨content, between, quote⟩ := holds
  cases mention with
  | literal text =>
      cases between
      exact .inl (by simp [warnings, Literal.hasQuote, quote])
  | argument text =>
      cases between
      exact .inl (by simp [warnings, Literal.hasQuote, quote])
  | fixedPath fixed =>
      cases between
      exact .inr ⟨_, rfl, quote⟩
  | pattern text => contradiction

end Mention

namespace Transcript

/-- The messages, with those still to come, are the warnings of the mentions. -/
def Accounts (transcript : Transcript) (pending : List Message) : Prop :=
  (transcript.messages ++ pending).Perm (transcript.mentions.flatMap Mention.warnings)

theorem accounts_empty : empty.Accounts [] := .nil

theorem accounts_silent {mentions : List Mention} {pending : List Message}
    (same : pending = mentions.flatMap Mention.warnings) : (silent mentions).Accounts pending := by
  subst same
  exact .refl _

theorem Accounts.append {first second : Transcript} {pending later : List Message}
    (left : first.Accounts pending) (right : second.Accounts later) :
    (first ++ second).Accounts (pending ++ later) := by
  have mentions : (first ++ second).mentions = first.mentions ++ second.mentions := rfl
  have messages : (first ++ second).messages = first.messages ++ second.messages := rfl
  -- pending messages of the first come after the messages of the second: only counts agree
  refine List.perm_iff_count.mpr fun message => ?_
  have leftCount := left.count_eq message
  have rightCount := right.count_eq message
  simp only [mentions, messages, List.flatMap_append, List.count_append] at leftCount rightCount ⊢
  omega

end Transcript

theorem Literal.warnings_eq_mentions (scalar : Literal) :
    scalar.warnings = scalar.mentions.flatMap Mention.warnings := by
  cases scalar <;> simp [warnings, mentions, Mention.warnings]

/-- The literals of a path are reported by nothing. -/
theorem Path.accounts_mentions (path : Path) : (Transcript.silent path.mentions).Accounts [] := by
  refine Transcript.accounts_silent ?_
  rw [eq_comm, List.flatMap_eq_nil_iff]
  intro mention member
  obtain ⟨piece, -, same⟩ := List.mem_filterMap.mp member
  cases piece with
  | quoted content =>
      cases same
      rfl
  | expression text => contradiction

namespace Accessor

variable {source target : Stage}

theorem accounts_transcript (accessor : Accessor source target) :
    accessor.transcript.Accounts [] := by
  have same : accessor.warnings = accessor.mentions.flatMap Mention.warnings := by
    cases accessor with
    | search query argument => exact (List.append_nil _).symm
    | replace substring replacement => exact congrArg _ (List.append_nil _).symm
    | matchPattern pattern => exact (List.append_nil _).symm
    | _ => rfl
  rw [Transcript.Accounts, List.append_nil]
  exact List.Perm.of_eq same

theorem warnings_atoms (accessor : Accessor source target) :
    accessor.atoms.flatMap Atom.warnings =
      (Element.flattenAll accessor.operands).flatMap Atom.warnings := by
  cases accessor with
  | evaluate operand => simp [atoms, operands, Element.flattenAll]
  | scope operand => simp [atoms, operands, Element.flattenAll, Atom.warnings]
  | _ => rfl

end Accessor

mutual

theorem Made.accounts {element : Element} {transcript : Transcript}
    (made : Made element transcript) : transcript.Accounts element.warnings := by
  match made with
  | .member text => exact Transcript.accounts_empty
  | .token symbol => exact Transcript.accounts_empty
  | .literal scalar =>
      refine Transcript.accounts_silent ?_
      rw [← scalar.warnings_eq_mentions]
      exact List.append_nil _
  | .chain all => exact all.accounts
  | .built builder => exact builder.accounts

theorem MadeAll.accounts {elements : List Element} {transcript : Transcript}
    (made : MadeAll elements transcript) :
    transcript.Accounts ((Element.flattenAll elements).flatMap Atom.warnings) := by
  match made with
  | .nil => exact Transcript.accounts_empty
  | .cons first others =>
      rw [Element.flattenAll, List.flatMap_append]
      exact first.accounts.append others.accounts

theorem Built.accounts {stage : Stage} {builder : Builder stage} {transcript : Transcript}
    (built : Built builder transcript) :
    transcript.Accounts (builder.chain.flatten.flatMap Atom.warnings) := by
  match built with
  | .start => exact Transcript.accounts_empty
  | .step earlier accessor operands paths =>
      have arguments := (operands.accounts.append paths.accounts).append
        accessor.accounts_transcript
      have whole := earlier.accounts.append arguments
      rw [Builder.step, Accessor.flatten_apply, List.flatMap_append, accessor.warnings_atoms]
      simpa only [List.append_nil] using whole

theorem ComposedPath.accounts {path : Path} {transcript : Transcript}
    (composed : ComposedPath path transcript) : transcript.Accounts [] := by
  match composed with
  | .empty => exact Transcript.accounts_empty
  | .push earlier text => exact earlier.accounts
  | .resolveText earlier text => exact earlier.accounts
  | .resolveElement earlier made =>
      refine earlier.accounts.append ?_
      rw [Transcript.Accounts, List.append_nil]
      exact made.accounts
  | .resolvePath earlier resolved =>
      exact earlier.accounts.append (resolved.accounts.append (Path.accounts_mentions _))

theorem ComposedAll.accounts {paths : List Path} {transcript : Transcript}
    (composed : ComposedAll paths transcript) : transcript.Accounts [] := by
  match composed with
  | .nil => exact Transcript.accounts_empty
  | .cons first others =>
      exact (first.accounts.append (Path.accounts_mentions _)).append others.accounts

end

namespace Transcript

/-- If a quoted text holds a quote, something is reported by the time that the element
has been rendered. -/
def Surfaces (transcript : Transcript) (element : Element) : Prop :=
  (∃ mention ∈ transcript.mentions, mention.HoldsQuote) →
    ∃ message ∈ transcript.messages ++ element.warnings, message.level = .warn

theorem Accounts.exists_warn_iff {transcript : Transcript} {pending : List Message}
    (accounts : transcript.Accounts pending) :
    (∃ message ∈ transcript.messages ++ pending, message.level = .warn) ↔
      ∃ mention ∈ transcript.mentions, mention.warnings ≠ [] := by
  constructor
  · rintro ⟨message, found, -⟩
    obtain ⟨mention, member, reported⟩ := List.mem_flatMap.mp (accounts.mem_iff.mp found)
    exact ⟨mention, member, List.ne_nil_of_mem reported⟩
  · rintro ⟨mention, member, reported⟩
    obtain ⟨message, found⟩ := List.exists_mem_of_ne_nil _ reported
    have present := accounts.mem_iff.mpr (List.mem_flatMap.mpr ⟨mention, member, found⟩)
    exact ⟨message, present, Mention.level_of_mem_warnings found⟩

end Transcript

/-- What is reported of an element is the warnings of the texts in it, each as often as
its text stands there. So a quote is passed over exactly when it stands in the fixed
text of a path and no other text of the element is reported. -/
theorem made_surfaces_iff {element : Element} {transcript : Transcript}
    (made : Made element transcript) :
    (∀ mention ∈ transcript.mentions, mention.written <:+: element.text.toList) ∧
      (transcript.messages ++ element.warnings).Perm
        (transcript.mentions.flatMap Mention.warnings) ∧
      (transcript.Surfaces element ↔
        ((∃ content, .fixedPath content ∈ transcript.mentions ∧ '\'' ∈ content) →
          ∃ mention ∈ transcript.mentions, mention.warnings ≠ [])) := by
  refine ⟨?_, made.accounts, ?_⟩
  · intro mention member
    obtain ⟨text, found, inside⟩ := made.standsIn mention member
    obtain ⟨atom, present, rfl⟩ := List.mem_map.mp found
    exact inside.trans (Atom.text_infix_write present false)
  · rw [Transcript.Surfaces, Transcript.Accounts.exists_warn_iff made.accounts]
    constructor
    · rintro surfaces ⟨content, member, quote⟩
      exact surfaces ⟨_, member, content, rfl, quote⟩
    · rintro noticed ⟨mention, member, holds⟩
      rcases holds.noticed with reported | ⟨content, rfl, quote⟩
      · exact ⟨mention, member, reported⟩
      · exact noticed ⟨content, member, quote⟩

/-- Quotes in a path, in a literal that the path resolves, and in an argument. -/
theorem made_surfaces_iff_of_three_quotes :
    ∃ element transcript, Made element transcript ∧
      element.text = "data.child('it's/' + 'o'k').val().contains('a'b')" ∧
      (transcript.messages ++ element.warnings).Perm
        [.literalQuote "o'k", .argumentQuote "a'b"] ∧
      transcript.Surfaces element := by
  let path := (Path.empty.push "it's").resolve (Element.literal (.string "o'k")).text
  have composed : ComposedPath path _ :=
    (ComposedPath.empty.push "it's").resolveElement (.literal (.string "o'k"))
  have data : Built _ _ := Built.start.step (.snapshot .data) .nil .nil
  have child : Built _ _ := data.step (.child path) .nil (.cons composed .nil)
  have read : Built _ _ := child.step (.read .string) .nil .nil
  have made : Made _ _ := .built (read.step (.search .contains "a'b") .nil .nil)
  obtain ⟨-, reported, surfaces⟩ := made_surfaces_iff made
  refine ⟨_, _, made, by decide, ?_, surfaces.mpr fun _ => ?_⟩
  · exact reported
  · exact ⟨.argument "a'b", by decide, by decide⟩

/-- A quote in the path of a child is reported by nothing. -/
theorem child_path_quote_unreported :
    ¬ ∀ element transcript, Made element transcript → transcript.Surfaces element := by
  intro always
  have data : Built _ _ := Built.start.step (.snapshot .data) .nil .nil
  let path := Path.empty.push "it's"
  have composed : ComposedPath path _ := ComposedPath.empty.push "it's"
  have made : Made _ _ := .built (data.step (.child path) .nil (.cons composed .nil))
  have surfaces := always _ _ made
  have quoted : Mention.HoldsQuote (.fixedPath "it's".toList) := ⟨_, rfl, by decide⟩
  obtain ⟨message, found, -⟩ := surfaces ⟨.fixedPath "it's".toList, by decide, quoted⟩
  contradiction

end AccessRules
