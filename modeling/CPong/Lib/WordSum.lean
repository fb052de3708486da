import Mathlib.Algebra.BigOperators.Group.List.Basic
import Mathlib.Data.BitVec

/-!
# Sums of signed words

A sum of words is the sum of their signed values as long as the magnitudes are small enough
together. In which order they are added, and what cancels out, is then of no matter.
-/

namespace Lib.WordSum

set_option autoImplicit false

variable {w : Nat}

def total (xs : List (BitVec w)) : Int := (xs.map BitVec.toInt).sum

def magnitude (xs : List (BitVec w)) : Nat := (xs.map fun x => x.toInt.natAbs).sum

@[simp] theorem total_nil : total ([] : List (BitVec w)) = 0 := rfl
@[simp] theorem magnitude_nil : magnitude ([] : List (BitVec w)) = 0 := rfl

@[simp] theorem total_cons (x : BitVec w) (xs : List (BitVec w)) :
    total (x :: xs) = x.toInt + total xs := by
  simp [total]

@[simp] theorem magnitude_cons (x : BitVec w) (xs : List (BitVec w)) :
    magnitude (x :: xs) = x.toInt.natAbs + magnitude xs := by
  simp [magnitude]

@[simp] theorem total_append (xs ys : List (BitVec w)) :
    total (xs ++ ys) = total xs + total ys := by
  simp [total]

@[simp] theorem magnitude_append (xs ys : List (BitVec w)) :
    magnitude (xs ++ ys) = magnitude xs + magnitude ys := by
  simp [magnitude]

theorem total_perm {xs ys : List (BitVec w)} (h : xs.Perm ys) : total xs = total ys :=
  (h.map _).sum_eq

theorem magnitude_perm {xs ys : List (BitVec w)} (h : xs.Perm ys) :
    magnitude xs = magnitude ys :=
  (h.map _).sum_eq

theorem magnitude_le_of_sublist {xs ys : List (BitVec w)} (h : xs.Sublist ys) :
    magnitude xs ≤ magnitude ys := by
  induction h with
  | slnil => exact le_rfl
  | cons y _ ih =>
    rw [magnitude_cons]
    exact ih.trans (Nat.le_add_left _ _)
  | cons_cons y _ ih =>
    rw [magnitude_cons, magnitude_cons]
    exact Nat.add_le_add_left ih _

theorem natAbs_total_le (xs : List (BitVec w)) : (total xs).natAbs ≤ magnitude xs := by
  induction xs with
  | nil => exact le_rfl
  | cons x xs ih =>
    rw [total_cons, magnitude_cons]
    exact (Int.natAbs_add_le _ _).trans (Nat.add_le_add_left ih _)

theorem toInt_sum {xs : List (BitVec w)} (h : 2 * magnitude xs < 2 ^ w) :
    xs.sum.toInt = total xs := by
  induction xs with
  | nil => simp
  | cons x xs ih =>
    have hle := natAbs_total_le (x :: xs)
    rw [magnitude_cons] at h
    rw [List.sum_cons, BitVec.toInt_add, ih (by omega), ← total_cons]
    rw [magnitude_cons] at hle
    generalize 2 ^ w = n at h ⊢
    apply Int.bmod_eq_of_le_mul_two
    · omega
    · omega

end Lib.WordSum
