import AccessRules.CommandLine.Session
import AccessRules.Proofs.Rules.Strictness
import AccessRules.Proofs.Rules.Verbatim

namespace AccessRules

namespace RuleNode

/-- Checks refuse trees, and change nothing about those that they accept. -/
theorem counted_lenient_of_counted {strictness : Strictness} {tree : RuleNode}
    {outcome : Json × Tally} (counted : (tree.compile strictness).counted = .ok outcome) :
    (tree.compile .lenient).counted = .ok outcome := by
  have union : Strictness.lenient.union strictness = strictness := by
    cases strictness
    simp [Strictness.union, Strictness.lenient]
  obtain ⟨rules, found, clean, written⟩ := (compile_counted_eq_ok_iff _ _ _).mp counted
  rw [← union, Resolved.offences_union_eq_nil_iff] at clean
  exact (compile_counted_eq_ok_iff _ _ _).mpr ⟨rules, found, clean.1, written⟩

end RuleNode

namespace CommandLine

namespace Settings

section Stages

variable (codec : JsonCodec) (settings : Settings) (surroundings : Surroundings)

/-- The document of the input, or why it has none. -/
def parsed : Except SessionFault Json :=
  settings.readInput surroundings >>= fun text => (codec.read text).mapError .invalidJson

/-- The document that is printed with its counts, or why there is none. -/
def compiled : Except SessionFault (Json × Tally) :=
  settings.parsed codec surroundings >>= fun json =>
    ((RuleNode.ofJson json).compile settings.strictness).counted.mapError .compilation

/-- The text of the document with its counts, or why there is none. -/
def printed : Except SessionFault (String × Tally) :=
  settings.compiled codec surroundings >>= fun (document, tally) =>
    (settings.documentText codec document).map fun output => (output, tally)

theorem compileText_eq (text : String) :
    settings.compileText codec text =
      (codec.read text).mapError .invalidJson >>= fun json =>
        ((RuleNode.ofJson json).compile settings.strictness).counted.mapError .compilation := by
  unfold compileText
  cases codec.read text with
  | error reason => rfl
  | ok json =>
      have parsed : Except.mapError SessionFault.invalidJson (.ok json) = .ok json := rfl
      simp only [parsed, bind, Except.bind, Run.counted]
      cases ((RuleNode.ofJson json).compile settings.strictness).result <;> rfl

theorem compiled_eq :
    settings.compiled codec surroundings =
      settings.readInput surroundings >>= settings.compileText codec := by
  have text : settings.compileText codec = _ := funext (compileText_eq codec settings)
  rw [compiled, parsed, bind_assoc, text]

theorem execute_eq :
    settings.execute codec surroundings =
      match settings.printed codec surroundings with
      | .error fault => fault.outcome
      | .ok (output, tally) =>
          ⟨0, output,
            if settings.report then
              reportText settings.color settings.sourceLabel surroundings.elapsed
                settings.strictness tally
            else ""⟩ := by
  rw [execute, printed, compiled_eq]
  cases settings.readInput surroundings with
  | error fault => rfl
  | ok text =>
      simp only [bind, Except.bind]
      cases settings.compileText codec text with
      | error fault => rfl
      | ok outcome =>
          obtain ⟨document, tally⟩ := outcome
          simp only [Except.map]
          cases settings.documentText codec document <;> rfl

end Stages

section Pair

variable {codec : JsonCodec} {left right : Settings}

theorem parsed_congr (input : left.input = right.input) (surroundings : Surroundings) :
    left.parsed codec surroundings = right.parsed codec surroundings := by
  rw [parsed, parsed, readInput, readInput, input]

theorem compiled_congr (input : left.input = right.input) (strict : left.strict = right.strict)
    (surroundings : Surroundings) :
    left.compiled codec surroundings = right.compiled codec surroundings := by
  rw [compiled, compiled, parsed_congr input, strictness, strictness, strict]

theorem documentText_congr (compact : left.compact = right.compact) (document : Json) :
    left.documentText codec document = right.documentText codec document := by
  rw [documentText, documentText, compact]

/-- A document that is not printed ends a run as a failed compilation does. -/
theorem exitCode_of_documentText {settings : Settings} {document : Json} {fault : SessionFault}
    (refused : settings.documentText codec document = .error fault) : fault.exitCode = 1 := by
  unfold documentText at refused
  split at refused
  · cases refused
    rfl
  · contradiction

theorem exists_documentText (agree : codec.PrintersAgree) (settings : Settings) {document : Json}
    {line indented : String} (compact : codec.compact document = .ok line)
    (pretty : codec.pretty document = .ok indented) (same : codec.SameValue line indented) :
    ∃ output, settings.documentText codec document = .ok output ∧
      codec.SameValue output line := by
  by_cases short : settings.compact = true
  · refine ⟨line ++ "\n", ?_, agree.ended document line (.inl compact)⟩
    rw [documentText, if_pos short, compact]
  · refine ⟨indented ++ "\n", ?_, ?_⟩
    · rw [documentText, if_neg short, pretty]
    · exact (agree.ended document indented (.inr pretty)).trans same.symm

/-- Where the printers agree, every document is printed, and what is read from its text does
not depend on the settings. -/
theorem documentText_sameValue (agree : codec.PrintersAgree) (left right : Settings)
    (document : Json) :
    ∃ first second, left.documentText codec document = .ok first ∧
      right.documentText codec document = .ok second ∧ codec.SameValue first second := by
  obtain ⟨line, indented, compact, pretty, same⟩ := agree.printed document
  obtain ⟨first, one, firstRead⟩ := exists_documentText agree left compact pretty same
  obtain ⟨second, other, secondRead⟩ := exists_documentText agree right compact pretty same
  exact ⟨first, second, one, other, firstRead.trans secondRead.symm⟩

theorem counted_of_stricter (stricter : left.strict = true → right.strict = true)
    {tree : RuleNode} {outcome : Json × Tally}
    (counted : (tree.compile right.strictness).counted = .ok outcome) :
    (tree.compile left.strictness).counted = .ok outcome := by
  by_cases strict : left.strict = true
  · rw [strictness, if_pos strict]
    rwa [strictness, if_pos (stricter strict)] at counted
  · rw [strictness, if_neg strict]
    exact RuleNode.counted_lenient_of_counted counted

/-- Where checks are switched on, a run gives the same document or fails on one of them. -/
theorem compiled_restricts (input : left.input = right.input)
    (stricter : left.strict = true → right.strict = true) (surroundings : Surroundings) :
    (∃ fault other, left.compiled codec surroundings = .error fault ∧
      right.compiled codec surroundings = .error other ∧ other.exitCode = fault.exitCode) ∨
    (∃ outcome, left.compiled codec surroundings = .ok outcome ∧
      (right.compiled codec surroundings = .ok outcome ∨
        ∃ failure, right.compiled codec surroundings = .error (.compilation failure))) := by
  unfold compiled
  rw [parsed_congr input]
  cases right.parsed codec surroundings with
  | error fault => exact .inl ⟨fault, fault, rfl, rfl, rfl⟩
  | ok json =>
      simp only [bind, Except.bind]
      cases strict : ((RuleNode.ofJson json).compile right.strictness).counted with
      | ok outcome =>
          rw [counted_of_stricter stricter strict]
          exact .inr ⟨outcome, rfl, .inl rfl⟩
      | error failure =>
          cases ((RuleNode.ofJson json).compile left.strictness).counted with
          | ok outcome => exact .inr ⟨outcome, rfl, .inr ⟨failure, rfl⟩⟩
          | error other => exact .inl ⟨_, _, rfl, rfl, rfl⟩

end Pair

end Settings

end CommandLine

end AccessRules
