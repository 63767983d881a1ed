import Mathlib.Data.List.Basic

/-!
# Merges of two lists

A list that holds the elements of two lists, each once and each list in its own order.
-/

namespace IntegrityGuardian.Library

variable {α : Type}

/-- The third list merges the other two. -/
inductive Merges : List α → List α → List α → Prop
  | nil : Merges [] [] []
  | left (a : α) {xs ys zs : List α} (h : Merges xs ys zs) : Merges (a :: xs) ys (a :: zs)
  | right (a : α) {xs ys zs : List α} (h : Merges xs ys zs) : Merges xs (a :: ys) (a :: zs)

namespace Merges

theorem left_only (xs : List α) : Merges xs [] xs := by
  induction xs with
  | nil => exact .nil
  | cons a xs ih => exact .left a ih

theorem right_only (ys : List α) : Merges [] ys ys := by
  induction ys with
  | nil => exact .nil
  | cons a ys ih => exact .right a ih

theorem append {xs ys zs xs' ys' zs' : List α} (h : Merges xs ys zs) (h' : Merges xs' ys' zs') :
    Merges (xs ++ xs') (ys ++ ys') (zs ++ zs') := by
  induction h with
  | nil => exact h'
  | left a _ ih => exact .left a ih
  | right a _ ih => exact .right a ih

theorem perm {xs ys zs : List α} (h : Merges xs ys zs) : zs.Perm (xs ++ ys) := by
  induction h with
  | nil => exact .refl _
  | left a _ ih => exact ih.cons a
  | right a _ ih => exact (ih.cons a).trans List.perm_middle.symm

theorem length {xs ys zs : List α} (h : Merges xs ys zs) :
    zs.length = xs.length + ys.length := by
  rw [h.perm.length_eq, List.length_append]

end Merges

end IntegrityGuardian.Library
