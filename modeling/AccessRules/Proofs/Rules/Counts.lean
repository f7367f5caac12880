import AccessRules.Proofs.Rules.Verdict

namespace AccessRules

namespace Tally

def withDeferred (tally : Tally) (deferred : Nat) : Tally := { tally with deferred }

theorem combine_withDeferred (left right : Tally) (first second : Nat) :
    (left.withDeferred first).combine (right.withDeferred second) =
      (left.combine right).withDeferred (first + second) := rfl

theorem visit_combine_withDeferred (depth : Nat) (tally : Tally) (deferred : Nat) :
    (visit depth).combine (tally.withDeferred deferred) =
      ((visit depth).combine tally).withDeferred deferred := by
  simp [visit, combine, withDeferred]

theorem deferral_combine_withDeferred (tally : Tally) (deferred : Nat) :
    deferral.combine (tally.withDeferred deferred) = tally.withDeferred (deferred + 1) := by
  simp [deferral, combine, withDeferred, Nat.add_comm]

end Tally

namespace Resolved

mutual

/-- The counts of a tree whose maps start at the given depth. -/
def tally (depth : Nat) : Resolved → Tally
  | .map entries => (Tally.visit depth).combine (entryTally (depth + 1) entries)
  | .list _ => .indexHint
  | .scalar _ => .scalar
  | .expression _ => .expression

def entryTally (depth : Nat) : List (String × Resolved) → Tally
  | [] => .zero
  | (_, child) :: rest => (child.tally depth).combine (entryTally depth rest)

end

end Resolved

namespace Outline

mutual

def deferrals : Outline → Nat
  | .map _ entries => entryDeferrals entries
  | .list _ _ => 0
  | .scalar _ => 0
  | .expression _ => 0
  | .deferred _ produced => produced.deferrals + 1

def entryDeferrals : List (String × Outline) → Nat
  | [] => 0
  | (_, child) :: rest => child.deferrals + entryDeferrals rest

end

/-- How many of them a compilation makes: those on the way to the top-level key, and
those under it. -/
def rootDeferrals : Outline → Nat
  | .map _ entries =>
      match Entries.find? entries Location.topKey with
      | some rules => rules.deferrals
      | none => 0
  | .deferred _ produced => produced.rootDeferrals + 1
  | _ => 0

end Outline

end AccessRules
