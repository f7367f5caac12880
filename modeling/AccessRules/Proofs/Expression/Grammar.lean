import AccessRules.Element

namespace AccessRules.Grammar

/-! The grammar of flattened expressions.

It speaks of atoms in a row and not of the chains that they came from. No group is
written unless it is asked for, so an operand may be a whole sentence, and what
carries the proofs below is that the grammar is closed under writing one sentence
where another asks for an operand.
-/

mutual

inductive Primary : List Atom → Prop where
  | literal (scalar : Literal) : Primary [.literal scalar]
  /-- A variable with everything that is asked of it. -/
  | members {run : List Atom} (nonempty : run ≠ [])
      (each : ∀ atom ∈ run, atom.isMember = true) : Primary run
  | group {body : List Atom} (inner : Sentence body) :
      Primary (.token .openGroup :: (body ++ [.token .closeGroup]))

/-- A primary behind any number of unary operators. -/
inductive Factor : List Atom → Prop where
  | primary {atoms : List Atom} (primary : Primary atoms) : Factor atoms
  | unary (operator : UnaryOperator) {atoms : List Atom} (factor : Factor atoms) :
      Factor (.token (.unary operator) :: atoms)

inductive Operations : List Atom → Prop where
  | factor {atoms : List Atom} (factor : Factor atoms) : Operations atoms
  | binary (operator : BinaryOperator) {left right : List Atom} (first : Factor left)
      (rest : Operations right) : Operations (left ++ .token (.binary operator) :: right)

inductive Sentence : List Atom → Prop where
  | operations {atoms : List Atom} (operations : Operations atoms) : Sentence atoms
  | conditional {condition whenTrue whenFalse : List Atom} (test : Operations condition)
      (first : Sentence whenTrue) (second : Sentence whenFalse) :
      Sentence (condition ++ .token .question :: (whenTrue ++ .token .colon :: whenFalse))

end

variable {atoms : List Atom}

theorem Factor.ne_nil (factor : Factor atoms) : atoms ≠ [] := by
  cases factor with
  | primary primary =>
      cases primary with
      | literal scalar => exact List.cons_ne_nil _ _
      | members nonempty each => exact nonempty
      | group inner => exact List.cons_ne_nil _ _
  | unary operator factor => exact List.cons_ne_nil _ _

theorem Sentence.ne_nil (sentence : Sentence atoms) : atoms ≠ [] := by
  cases sentence with
  | operations operations =>
      cases operations with
      | factor factor => exact factor.ne_nil
      | binary operator first rest => simp
  | conditional test first second => simp

theorem Operations.append (operator : BinaryOperator) {left right : List Atom}
    (first : Operations left) (second : Operations right) :
    Operations (left ++ .token (.binary operator) :: right) := by
  match first with
  | .factor single => exact .binary operator single second
  | .binary earlier start rest =>
      rw [List.append_assoc]
      exact .binary earlier start (rest.append operator second)

theorem Operations.unary (operator : UnaryOperator) (operations : Operations atoms) :
    Operations (.token (.unary operator) :: atoms) := by
  cases operations with
  | factor factor => exact .factor (.unary operator factor)
  | binary later first rest => exact .binary later (.unary operator first) rest

namespace Sentence

theorem literal (scalar : Literal) : Sentence [.literal scalar] :=
  .operations (.factor (.primary (.literal scalar)))

theorem members (nonempty : atoms ≠ []) (each : ∀ atom ∈ atoms, atom.isMember = true) :
    Sentence atoms :=
  .operations (.factor (.primary (.members nonempty each)))

theorem group (inner : Sentence atoms) :
    Sentence (.token .openGroup :: (atoms ++ [.token .closeGroup])) :=
  .operations (.factor (.primary (.group inner)))

/-- A unary operator goes to the first factor, wherever the sentence ends. -/
theorem unary (operator : UnaryOperator) (sentence : Sentence atoms) :
    Sentence (.token (.unary operator) :: atoms) := by
  cases sentence with
  | operations plain => exact .operations (plain.unary operator)
  | conditional test first second => exact .conditional (test.unary operator) first second

/-- A binary operator after a conditional goes to its last branch, one before a
conditional to its test. -/
theorem binary (operator : BinaryOperator) {left right : List Atom} (first : Sentence left)
    (second : Sentence right) :
    Sentence (left ++ .token (.binary operator) :: right) := by
  match first with
  | .operations earlier =>
      cases second with
      | operations later => exact .operations (earlier.append operator later)
      | conditional test whenTrue whenFalse =>
          rw [← List.cons_append, ← List.append_assoc]
          exact .conditional (earlier.append operator test) whenTrue whenFalse
  | .conditional test whenTrue whenFalse =>
      simp only [List.append_assoc, List.cons_append]
      exact .conditional test whenTrue (whenFalse.binary operator second)

/-- A conditional as a test turns into one whose last branch is the new conditional. -/
theorem ternary {condition whenTrue whenFalse : List Atom} (test : Sentence condition)
    (first : Sentence whenTrue) (second : Sentence whenFalse) :
    Sentence (condition ++ .token .question :: (whenTrue ++ .token .colon :: whenFalse)) := by
  match test with
  | .operations plain => exact .conditional plain first second
  | .conditional outer earlier last =>
      simp only [List.append_assoc, List.cons_append]
      exact .conditional outer earlier (last.ternary first second)

end Sentence

/-- After these atoms any sentence makes a sentence. -/
def Opens (atoms : List Atom) : Prop :=
  ∀ operand, Sentence operand → Sentence (atoms ++ operand)

theorem Opens.nil : Opens [] := fun _ sentence => sentence

theorem Opens.unary (operator : UnaryOperator) (opened : Opens atoms) :
    Opens (atoms ++ [.token (.unary operator)]) := by
  intro operand sentence
  rw [List.append_assoc]
  exact opened _ (sentence.unary operator)

theorem Sentence.opens (operator : BinaryOperator) (sentence : Sentence atoms) :
    Opens (atoms ++ [.token (.binary operator)]) := by
  intro operand later
  rw [List.append_assoc]
  exact sentence.binary operator later

/-- Atoms that end in a variable or in something asked of one, so that more may be
asked of it. -/
inductive Accessed : List Atom → Prop where
  | run {before run : List Atom} (opened : Opens before) (nonempty : run ≠ [])
      (each : ∀ atom ∈ run, atom.isMember = true) : Accessed (before ++ run)

theorem Accessed.sentence (accessed : Accessed atoms) : Sentence atoms := by
  obtain ⟨opened, nonempty, each⟩ := accessed
  exact opened _ (.members nonempty each)

theorem Opens.member (opened : Opens atoms) (text : String) :
    Accessed (atoms ++ [.member text]) :=
  .run opened (List.cons_ne_nil _ _) (by simp [Atom.isMember])

theorem Accessed.member (accessed : Accessed atoms) (text : String) :
    Accessed (atoms ++ [.member text]) := by
  obtain ⟨opened, nonempty, each⟩ := accessed
  rw [List.append_assoc]
  refine .run opened (by simp) ?_
  intro atom found
  rcases List.mem_append.mp found with earlier | last
  · exact each atom earlier
  · rw [List.mem_singleton.mp last]
    rfl

end AccessRules.Grammar
