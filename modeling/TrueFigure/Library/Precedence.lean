import Mathlib.Data.List.Forall2

/-!
# The first of several

Several places in the order of their precedence, each of them empty or filled; the first that is
filled applies. Where a place once filled keeps what it has, another one comes to apply only by
filling a place before it.
-/
namespace TrueFigure.Library

variable {α : Type} {xs ys : List (Option α)}

/-- How early a place is filled first: the places from there on, zero if none is filled. -/
def precedence : List (Option α) → ℕ
  | [] => 0
  | some _ :: xs => xs.length + 1
  | none :: xs => precedence xs

/-- Place by place, what is filled stays as it is. -/
def Stay (xs ys : List (Option α)) : Prop :=
  List.Forall₂ (fun x y => ∀ a, x = some a → y = some a) xs ys

theorem precedence_le (xs : List (Option α)) : precedence xs ≤ xs.length := by
  induction xs with
  | nil => exact Nat.le_refl _
  | cons x xs ih =>
    cases x with
    | some a => exact Nat.le_refl _
    | none => exact Nat.le_succ_of_le ih

/-- The first filled place comes no later. -/
theorem Stay.precedence_le (h : Stay xs ys) : precedence xs ≤ precedence ys := by
  induction h with
  | nil => exact Nat.le_refl _
  | @cons x y xs ys hhead htail ih =>
    cases x with
    | some a =>
      rw [hhead a rfl]
      exact Nat.succ_le_succ (Nat.le_of_eq htail.length_eq)
    | none =>
      cases y with
      | some b =>
        have hle := Library.precedence_le xs
        have hlength := htail.length_eq
        simp only [precedence]
        omega
      | none => exact ih

/-- What applies is the same if it comes no earlier. -/
theorem Stay.findSome?_eq (h : Stay xs ys) (hsame : precedence xs = precedence ys) :
    xs.findSome? id = ys.findSome? id := by
  induction h with
  | nil => rfl
  | @cons x y xs ys hhead htail ih =>
    cases x with
    | some a =>
      rw [hhead a rfl]
      rfl
    | none =>
      cases y with
      | some b =>
        have hle := Library.precedence_le xs
        have hlength := htail.length_eq
        simp only [precedence] at hsame
        omega
      | none => exact ih hsame

end TrueFigure.Library
