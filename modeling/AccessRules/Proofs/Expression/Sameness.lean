import AccessRules.Element
import AccessRules.Proofs.Number.NumberText
import Mathlib.Data.List.Forall2

namespace AccessRules

/-! Elements that are equal up to the sign of a zero.

The equality of elements compares numbers by value. It is no identity, and it does not even
hold between an element and itself if there is a NaN in it. What is written of an element and
what is reported goes by its atoms, and there both zeros are one number. So equal elements can
stand for one another everywhere, whatever stands around them.
-/

namespace Atom

/-- Atoms that nothing written or reported can tell apart. -/
structure Alike (left right : Atom) : Prop where
  text : left.text = right.text
  isMember : left.isMember = right.isMember
  warnings : left.warnings = right.warnings

theorem Alike.refl (atom : Atom) : Alike atom atom := ⟨rfl, rfl, rfl⟩

theorem alike_literal_of_same {left right : Literal} (same : left.same right = true) :
    Alike (.literal left) (.literal right) := by
  cases left with
  | number value =>
      cases right with
      | number other =>
          have written := Literal.numberText_eq_of_same same
          exact ⟨congrArg String.ofList written, rfl, rfl⟩
      | null | boolean _ | string _ => contradiction
  | null | boolean _ | string _ =>
      obtain rfl := of_decide_eq_true same
      exact .refl _

theorem alike_of_same {left right : Atom} (same : left.same right = true) : Alike left right := by
  cases left with
  | literal scalar =>
      cases right with
      | literal other => exact alike_literal_of_same same
      | member _ | token _ => contradiction
  | member _ | token _ =>
      obtain rfl := of_decide_eq_true same
      exact .refl _

theorem write_congr {lefts rights : List Atom} (alike : List.Forall₂ Alike lefts rights)
    (afterMember : Bool) : write afterMember lefts = write afterMember rights := by
  induction alike generalizing afterMember with
  | nil => rfl
  | cons first rest ih => rw [write, write, first.text, first.isMember, ih]

theorem flatMap_warnings_congr {lefts rights : List Atom}
    (alike : List.Forall₂ Alike lefts rights) :
    lefts.flatMap warnings = rights.flatMap warnings := by
  induction alike with
  | nil => rfl
  | cons first rest ih => rw [List.flatMap_cons, List.flatMap_cons, first.warnings, ih]

end Atom

namespace Element

def Alike (left right : Element) : Prop := List.Forall₂ Atom.Alike left.flatten right.flatten

mutual

theorem forall₂_flatten_of_same {left right : Element} (same : left.same right = true) :
    List.Forall₂ (fun first second => first.same second = true) left.flatten right.flatten := by
  cases left with
  | atom leaf =>
      cases right with
      | atom other => exact .cons same .nil
      | chain others => contradiction
  | chain elements =>
      cases right with
      | atom other => contradiction
      | chain others => exact forall₂_flattenAll_of_same same

theorem forall₂_flattenAll_of_same {lefts rights : List Element}
    (same : sameAll lefts rights = true) :
    List.Forall₂ (fun first second => first.same second = true)
      (flattenAll lefts) (flattenAll rights) := by
  cases lefts with
  | nil =>
      cases rights with
      | nil => exact .nil
      | cons other others => contradiction
  | cons element rest =>
      cases rights with
      | nil => contradiction
      | cons other others =>
          obtain ⟨first, later⟩ := Bool.and_eq_true_iff.mp same
          exact List.rel_append (forall₂_flatten_of_same first) (forall₂_flattenAll_of_same later)

end

variable {left right : Element}

theorem alike_of_same (same : left.same right = true) : left.Alike right :=
  (forall₂_flatten_of_same same).imp fun _ _ => Atom.alike_of_same

theorem Alike.text (alike : left.Alike right) : left.text = right.text :=
  Atom.write_congr alike false

theorem Alike.warnings (alike : left.Alike right) : left.warnings = right.warnings :=
  Atom.flatMap_warnings_congr alike

/-- An element with one element left open, at any depth. -/
inductive Place where
  | here
  | inside (before : List Element) (place : Place) (after : List Element)

def Place.fill (element : Element) : Place → Element
  | .here => element
  | .inside before place after => .chain (before ++ place.fill element :: after)

theorem Alike.inside (alike : left.Alike right) (before after : List Element) :
    Alike (.chain (before ++ left :: after)) (.chain (before ++ right :: after)) := by
  have unchanged : ∀ atoms : List Atom, List.Forall₂ Atom.Alike atoms atoms :=
    fun atoms => List.forall₂_same.mpr fun atom _ => Atom.Alike.refl atom
  simp only [Alike, flatten, flattenAll_append, flattenAll]
  exact List.rel_append (unchanged _) (List.rel_append alike (unchanged _))

theorem Alike.fill (alike : left.Alike right) (place : Place) :
    Alike (place.fill left) (place.fill right) := by
  induction place with
  | here => exact alike
  | inside before place after ih => exact ih.inside before after

end Element

end AccessRules
