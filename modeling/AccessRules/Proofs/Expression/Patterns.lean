import Mathlib.Computability.Language
import AccessRules.Accessor

namespace AccessRules

/-! Pattern literals, and what becomes of the argument of a pattern test.

A pattern literal is told by a regular expression, which may find its closing slash
anywhere in a text. The recogniser looks behind the last slash alone. The two agree
because flags hold no slash, so every other slash belongs to the pattern.
-/

namespace Text

open Computability

/-- The texts of one character that is of a class. -/
def oneOf (accepted : Char → Prop) : Language Char :=
  {text | ∃ char, accepted char ∧ text = [char]}

theorem mem_oneOf_mul_iff (accepted : Char → Prop) (later : Language Char) (text : List Char) :
    text ∈ oneOf accepted * later ↔
      ∃ char rest, text = char :: rest ∧ accepted char ∧ rest ∈ later := by
  constructor
  · intro member
    obtain ⟨_, ⟨char, fits, rfl⟩, rest, behind, rfl⟩ := Language.mem_mul.mp member
    exact ⟨char, rest, rfl, fits, behind⟩
  · intro spelled
    obtain ⟨char, rest, rfl, fits, behind⟩ := spelled
    have one : [char] ∈ oneOf accepted := ⟨char, fits, rfl⟩
    exact Language.append_mem_mul one behind

theorem mem_kstar_oneOf_iff (accepted : Char → Prop) (text : List Char) :
    text ∈ (oneOf accepted)∗ ↔ ∀ char ∈ text, accepted char := by
  constructor
  · intro member
    obtain ⟨parts, rfl, single⟩ := Language.mem_kstar.mp member
    intro char inside
    obtain ⟨part, among, held⟩ := List.mem_flatten.mp inside
    obtain ⟨own, fits, rfl⟩ := single part among
    rwa [List.mem_singleton.mp held]
  · intro all
    refine Language.mem_kstar.mpr ⟨text.map fun char => [char], ?_, ?_⟩
    · rw [← List.flatMap_def, List.flatMap_singleton']
    · intro part among
      obtain ⟨char, inside, rfl⟩ := List.mem_map.mp among
      exact ⟨char, all char inside, rfl⟩

def IsFlag (char : Char) : Prop := 'a' ≤ char ∧ char ≤ 'z'

instance (char : Char) : Decidable (IsFlag char) :=
  inferInstanceAs (Decidable ('a' ≤ char ∧ char ≤ 'z'))

/-- The texts that `/.*/[a-z]*` describes from end to end. The dot stands for every character
but a line break. -/
def patternLiterals : Language Char :=
  oneOf (· = '/') * (oneOf (· ≠ '\n'))∗ * oneOf (· = '/') * (oneOf IsFlag)∗

/-- A slash, a pattern on one line that may hold slashes, a slash, and flags up to the end. -/
def IsPatternLiteral (text : List Char) : Prop :=
  ∃ pattern flags, text = '/' :: (pattern ++ '/' :: flags) ∧ '\n' ∉ pattern ∧
    ∀ char ∈ flags, IsFlag char

theorem isFlag_iff (char : Char) : isFlag char = true ↔ IsFlag char := by
  rw [isFlag, Bool.and_eq_true, decide_eq_true_iff, decide_eq_true_iff]
  rfl

theorem mem_patternLiterals_iff (text : List Char) :
    text ∈ patternLiterals ↔ IsPatternLiteral text := by
  simp only [patternLiterals, mul_assoc, mem_oneOf_mul_iff]
  constructor
  · intro member
    obtain ⟨_, rest, rfl, rfl, behind⟩ := member
    obtain ⟨pattern, inPattern, _, closing, rfl⟩ := Language.mem_mul.mp behind
    obtain ⟨_, flags, rfl, rfl, inFlags⟩ := (mem_oneOf_mul_iff _ _ _).mp closing
    refine ⟨pattern, flags, rfl, ?_, (mem_kstar_oneOf_iff _ _).mp inFlags⟩
    intro broken
    exact (mem_kstar_oneOf_iff _ _).mp inPattern '\n' broken rfl
  · intro spelled
    obtain ⟨pattern, flags, rfl, oneLine, inFlags⟩ := spelled
    refine ⟨'/', _, rfl, rfl, Language.append_mem_mul ?_ ?_⟩
    · refine (mem_kstar_oneOf_iff _ _).mpr ?_
      intro char inside same
      exact oneLine (same ▸ inside)
    · exact (mem_oneOf_mul_iff _ _ _).mpr
        ⟨'/', flags, rfl, rfl, (mem_kstar_oneOf_iff _ _).mpr inFlags⟩

/-- Dropping from the end what a test accepts stops at the last character that it refuses. -/
theorem dropWhile_reverse_eq_cons_iff {accepted : Char → Bool} {stop : Char}
    (refused : accepted stop = false) (text front : List Char) :
    text.reverse.dropWhile accepted = stop :: front ↔
      ∃ behind, text = front.reverse ++ stop :: behind ∧
        ∀ char ∈ behind, accepted char = true := by
  constructor
  · intro dropped
    have whole : text.reverse.takeWhile accepted ++ stop :: front = text.reverse := by
      rw [← dropped, List.takeWhile_append_dropWhile]
    refine ⟨(text.reverse.takeWhile accepted).reverse, ?_, ?_⟩
    · apply List.reverse_injective
      simp [whole]
    · intro char inside
      exact List.all_eq_true.mp List.all_takeWhile char (List.mem_reverse.mp inside)
  · intro split
    obtain ⟨behind, rfl, all⟩ := split
    have backward :
        (front.reverse ++ stop :: behind).reverse = behind.reverse ++ stop :: front := by simp
    rw [backward, List.dropWhile_append_of_pos (by simpa using all),
      List.dropWhile_cons_of_neg (by simp [refused])]

/-- The recogniser looks at one place alone and still finds every pattern literal. -/
theorem isPattern_iff (text : List Char) : isPattern text = true ↔ IsPatternLiteral text := by
  -- no flag is a slash, so the search from the end stops at the closing slash of every split
  have slash : isFlag '/' = false := rfl
  constructor
  · intro accepted
    unfold isPattern at accepted
    split at accepted
    next body =>
      split at accepted
      next backward closed =>
        obtain ⟨flags, rfl, all⟩ := (dropWhile_reverse_eq_cons_iff slash _ _).mp closed
        refine ⟨backward.reverse, flags, rfl, by simpa using accepted, ?_⟩
        intro char inside
        exact (isFlag_iff char).mp (all char inside)
      next => contradiction
    next => contradiction
  · intro spelled
    obtain ⟨pattern, flags, rfl, oneLine, inFlags⟩ := spelled
    have closed : (pattern ++ '/' :: flags).reverse.dropWhile isFlag = '/' :: pattern.reverse := by
      apply (dropWhile_reverse_eq_cons_iff slash _ _).mpr
      refine ⟨flags, by rw [List.reverse_reverse], ?_⟩
      intro char inside
      exact (isFlag_iff char).mpr (inFlags char inside)
    simpa only [isPattern, closed, Bool.not_eq_true', List.contains_eq_mem,
      decide_eq_false_iff_not, List.mem_reverse] using oneLine

example : isPattern ['/', 'a', '/', 'b', '/', 'g'] = true ∧
    isPattern ['/', 'a', '/', 'g', '\n'] = false := by decide

/-- Whether a slash stands at a position of a text and no other one behind it. -/
def IsLastSlash (text : List Char) (position : Nat) : Prop :=
  text[position]? = some '/' ∧ ∀ later, position < later → text[later]? ≠ some '/'

/-- What a text has to be to be closed by its last slash. -/
structure ClosedByLastSlash (text : List Char) : Prop where
  oneLine : '\n' ∉ text
  opened : text.head? = some '/'
  closed : ∃ position, IsLastSlash text position ∧ position ≠ 0 ∧
    ∀ char ∈ text.drop (position + 1), IsFlag char

theorem isLastSlash_append {behind : List Char} (absent : '/' ∉ behind) (front : List Char) :
    IsLastSlash (front ++ '/' :: behind) front.length := by
  refine ⟨by simp, ?_⟩
  intro later after found
  obtain ⟨distance, rfl⟩ : ∃ distance, later = front.length + (distance + 1) :=
    ⟨later - front.length - 1, by omega⟩
  rw [List.getElem?_append_right (by omega), Nat.add_sub_cancel_left,
    List.getElem?_cons_succ] at found
  exact absent (List.mem_of_getElem? found)

theorem isPatternLiteral_iff_closedByLastSlash (text : List Char) :
    IsPatternLiteral text ↔ ClosedByLastSlash text := by
  constructor
  · intro spelled
    obtain ⟨pattern, flags, rfl, oneLine, inFlags⟩ := spelled
    have noSlash : '/' ∉ flags := fun inside => absurd (inFlags _ inside) (by decide)
    have noBreak : '\n' ∉ flags := fun inside => absurd (inFlags _ inside) (by decide)
    refine ⟨by simp [oneLine, noBreak], rfl, pattern.length + 1, ?_, Nat.succ_ne_zero _, ?_⟩
    · exact isLastSlash_append noSlash ('/' :: pattern)
    · simpa using inFlags
  · intro closed
    obtain ⟨oneLine, opened, position, last, behindFirst, inFlags⟩ := closed
    obtain ⟨body, rfl⟩ := List.head?_eq_some_iff.mp opened
    obtain ⟨before, rfl⟩ := Nat.exists_eq_succ_of_ne_zero behindFirst
    have found : body[before]? = some '/' := last.1
    obtain ⟨bound, slash⟩ := List.getElem?_eq_some_iff.mp found
    have split : body.take before ++ '/' :: body.drop (before + 1) = body := by
      rw [← slash, ← List.drop_eq_getElem_cons, List.take_append_drop]
    refine ⟨body.take before, body.drop (before + 1), by rw [split], ?_, inFlags⟩
    intro broken
    exact oneLine (List.mem_cons_of_mem _ (List.mem_of_mem_take broken))

end Text

/-- A pattern test writes its argument into the expression as it is, whatever it holds. It warns of
the argument exactly if that is no pattern literal: no text of the regular expression or, what
comes to the same, not closed by its last slash. -/
theorem Builder.pattern_test_warns (builder : Builder (.value .string)) (argument : String) :
    (builder.step (.matchPattern argument)).chain =
      builder.chain ++ [.member ("matches(" ++ argument ++ ")")] ∧
    ((Accessor.matchPattern argument).warnings = [.notPattern argument] ↔
      ¬ Text.IsPatternLiteral argument.toList) ∧
    ((Accessor.matchPattern argument).warnings = [] ↔ Text.IsPatternLiteral argument.toList) ∧
    (Message.notPattern argument).level = .warn ∧
    (Text.IsPatternLiteral argument.toList ↔ argument.toList ∈ Text.patternLiterals) ∧
    (Text.IsPatternLiteral argument.toList ↔ Text.ClosedByLastSlash argument.toList) := by
  refine ⟨rfl, ?_, ?_, rfl, ?_, ?_⟩
  · rw [← Text.isPattern_iff]
    simp [Accessor.warnings]
  · rw [← Text.isPattern_iff]
    simp [Accessor.warnings]
  · exact (Text.mem_patternLiterals_iff _).symm
  · exact Text.isPatternLiteral_iff_closedByLastSlash _

end AccessRules
