import AccessRules.Message
import AccessRules.Rules.Failure

namespace AccessRules

structure Tally where
  /-- Maps visited, the one under the top-level key included. -/
  locations : Nat
  /-- Expressions rendered to text. -/
  expressions : Nat
  /-- Deferred nodes made. -/
  deferred : Nat
  /-- Lists of index keys passed on. -/
  indexHints : Nat
  /-- Scalars passed on. -/
  scalars : Nat
  /-- The deepest level of maps below the top-level key. -/
  maxDepth : Nat
deriving DecidableEq, Repr

namespace Tally

def zero : Tally := ⟨0, 0, 0, 0, 0, 0⟩

def visit (depth : Nat) : Tally := ⟨1, 0, 0, 0, 0, depth⟩

def expression : Tally := ⟨0, 1, 0, 0, 0, 0⟩

def deferral : Tally := ⟨0, 0, 1, 0, 0, 0⟩

def indexHint : Tally := ⟨0, 0, 0, 1, 0, 0⟩

def scalar : Tally := ⟨0, 0, 0, 0, 1, 0⟩

/-- Sums of the counts and the greater depth. -/
def combine (left right : Tally) : Tally where
  locations := left.locations + right.locations
  expressions := left.expressions + right.expressions
  deferred := left.deferred + right.deferred
  indexHints := left.indexHints + right.indexHints
  scalars := left.scalars + right.scalars
  maxDepth := max left.maxDepth right.maxDepth

/-- The entries of the output that hold no others, a list being one entry. -/
def leaves (tally : Tally) : Nat := tally.expressions + tally.indexHints + tally.scalars

@[simp] theorem zero_combine (tally : Tally) : zero.combine tally = tally := by
  simp [zero, combine]

@[simp] theorem combine_zero (tally : Tally) : tally.combine zero = tally := by
  simp [zero, combine]

theorem combine_assoc (first second third : Tally) :
    (first.combine second).combine third = first.combine (second.combine third) := by
  simp [combine, Nat.add_assoc, Nat.max_assoc]

end Tally

/-- What a compilation has reported and counted, and what came of it. A failure
keeps what was reported before it. -/
structure Run (α : Type) where
  messages : List Message
  tally : Tally
  result : Except CompileFailure α

namespace Run

variable {α β : Type}

def done (value : α) : Run α := ⟨[], .zero, .ok value⟩

def fail (failure : CompileFailure) : Run α := ⟨[], .zero, .error failure⟩

def report (messages : List Message) : Run Unit := ⟨messages, .zero, .ok ()⟩

def count (tally : Tally) : Run Unit := ⟨[], tally, .ok ()⟩

/-- Goes on with the value of a run, if there is one. -/
def andThen (run : Run α) (next : α → Run β) : Run β :=
  match run.result with
  | .error failure => ⟨run.messages, run.tally, .error failure⟩
  | .ok value =>
      let later := next value
      ⟨run.messages ++ later.messages, run.tally.combine later.tally, later.result⟩

instance : Monad Run where
  pure := done
  bind := andThen

theorem pure_eq_done (value : α) : (pure value : Run α) = done value := rfl

theorem andThen_of_error {run : Run α} {failure : CompileFailure}
    (failed : run.result = .error failure) (next : α → Run β) :
    run.andThen next = ⟨run.messages, run.tally, .error failure⟩ := by
  simp [andThen, failed]

/-- The result of a sequence is the sequence of the results. -/
@[simp] theorem bind_result (run : Run α) (next : α → Run β) :
    (run >>= next).result = run.result >>= fun value => (next value).result := by
  cases found : run.result with
  | error failure => simp [bind, andThen, Except.bind, found]
  | ok value => simp [bind, andThen, Except.bind, found]

@[simp] theorem pure_result (value : α) : (pure value : Run α).result = pure value := rfl

@[simp] theorem fail_result (failure : CompileFailure) :
    (fail failure : Run α).result = .error failure := rfl

@[simp] theorem report_result (messages : List Message) : (report messages).result = pure () := rfl

@[simp] theorem count_result (tally : Tally) : (count tally).result = pure () := rfl

theorem bind_of_ok {run : Run α} {messages : List Message} {tally : Tally} {value : α}
    (same : run = ⟨messages, tally, .ok value⟩) (next : α → Run β) :
    (run >>= next) =
      ⟨messages ++ (next value).messages, tally.combine (next value).tally,
        (next value).result⟩ := by
  subst same
  rfl

theorem report_bind (messages : List Message) (next : Unit → Run β) :
    (report messages >>= next) =
      ⟨messages ++ (next ()).messages, (next ()).tally, (next ()).result⟩ := by
  rw [bind_of_ok (show report messages = ⟨messages, .zero, .ok ()⟩ from rfl),
    Tally.zero_combine]

theorem count_bind (tally : Tally) (next : Unit → Run β) :
    (count tally >>= next) =
      ⟨(next ()).messages, tally.combine (next ()).tally, (next ()).result⟩ :=
  bind_of_ok (show count tally = ⟨[], tally, .ok ()⟩ from rfl) next

theorem map_of_ok {run : Run α} {messages : List Message} {tally : Tally} {value : α}
    (same : run = ⟨messages, tally, .ok value⟩) (convert : α → β) :
    (run >>= fun value => pure (convert value)) = ⟨messages, tally, .ok (convert value)⟩ := by
  rw [bind_of_ok same]
  simp only [pure_eq_done, done, List.append_nil, Tally.combine_zero]

theorem done_andThen (value : α) (next : α → Run β) : (done value).andThen next = next value := by
  simp [andThen, done]

theorem andThen_done (run : Run α) : run.andThen done = run := by
  obtain ⟨messages, tally, result⟩ := run
  cases result with
  | error failure => rfl
  | ok value => simp [andThen, done]

theorem andThen_assoc {γ : Type} (run : Run α) (next : α → Run β) (last : β → Run γ) :
    (run.andThen next).andThen last = run.andThen fun value => (next value).andThen last := by
  obtain ⟨messages, tally, result⟩ := run
  cases result with
  | error failure => rfl
  | ok value =>
      cases later : (next value).result with
      | error failure => simp [andThen, later]
      | ok second => simp [andThen, later, Tally.combine_assoc]

instance : LawfulMonad Run :=
  .mk' Run andThen_done done_andThen andThen_assoc

end Run

end AccessRules
