import Mathlib.Tactic

/-!
# How many elements of a list were changed

The Hamming distance of two lists of one length counts the positions at which
they differ. It is used to say how many changes a code notices: lists that
differ split at their first change (`exists_first_change`), which leaves a
distance that is one smaller.
-/

set_option autoImplicit false

namespace AirNet.Lib

variable {α : Type} [DecidableEq α]

/-- The number of positions at which two lists differ. -/
def distance : List α → List α → Nat
  | x :: xs, y :: ys => distance xs ys + if x = y then 0 else 1
  | _, _ => 0

@[simp] theorem distance_self (xs : List α) : distance xs xs = 0 := by
  induction xs with
  | nil => rfl
  | cons x xs ih => rw [distance, ih, if_pos rfl]

theorem distance_append {xs ys : List α} (length : xs.length = ys.length) (xs' ys' : List α) :
    distance (xs ++ xs') (ys ++ ys') = distance xs ys + distance xs' ys' := by
  induction xs generalizing ys with
  | nil =>
      obtain rfl := List.length_eq_zero_iff.mp length.symm
      exact (Nat.zero_add _).symm
  | cons x xs ih =>
      cases ys with
      | nil => cases length
      | cons y ys =>
          have shorter : xs.length = ys.length := Nat.succ.inj length
          simp only [List.cons_append, distance, ih shorter]
          omega

/-- Lists that differ split at their first change. -/
theorem exists_first_change {xs ys : List α} (length : xs.length = ys.length) (ne : xs ≠ ys) :
    ∃ before x y xs' ys', xs = before ++ x :: xs' ∧ ys = before ++ y :: ys' ∧ x ≠ y ∧
      xs'.length = ys'.length ∧ distance xs ys = distance xs' ys' + 1 := by
  induction xs generalizing ys with
  | nil => exact absurd (List.length_eq_zero_iff.mp length.symm).symm ne
  | cons x xs ih =>
      cases ys with
      | nil => cases length
      | cons y ys =>
          have shorter : xs.length = ys.length := Nat.succ.inj length
          by_cases same : x = y
          · subst same
            have differ : xs ≠ ys := fun equal => ne (by rw [equal])
            obtain ⟨before, x', y', xs', ys', rfl, rfl, change, rest, count⟩ := ih shorter differ
            refine ⟨x :: before, x', y', xs', ys', rfl, rfl, change, rest, ?_⟩
            rw [distance, if_pos rfl, count]
          · refine ⟨[], x, y, xs, ys, rfl, rfl, same, shorter, ?_⟩
            rw [distance, if_neg same]

theorem distance_pos {xs ys : List α} (length : xs.length = ys.length) (ne : xs ≠ ys) :
    0 < distance xs ys := by
  obtain ⟨-, -, -, xs', ys', -, -, -, -, count⟩ := exists_first_change length ne
  omega

end AirNet.Lib
