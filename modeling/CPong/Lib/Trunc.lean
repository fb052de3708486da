import Mathlib.Algebra.Order.Floor.Ring
import Mathlib.Tactic.Linarith

/-!
# Truncation toward zero

The conversion from a number to an integer that drops the fraction.
-/

namespace Lib

set_option autoImplicit false

variable {F : Type} [Field F] [LinearOrder F] [FloorRing F]

def trunc (x : F) : Int := if 0 ≤ x then ⌊x⌋ else ⌈x⌉

variable {x : F}

theorem trunc_of_nonneg (h : 0 ≤ x) : trunc x = ⌊x⌋ :=
  if_pos h

theorem trunc_nonneg (h : 0 ≤ x) : 0 ≤ trunc x := by
  rw [trunc_of_nonneg h]
  exact Int.floor_nonneg.mpr h

theorem trunc_le (h : 0 ≤ x) : (trunc x : F) ≤ x := by
  rw [trunc_of_nonneg h]
  exact Int.floor_le x

variable [IsStrictOrderedRing F]

@[simp] theorem trunc_intCast (n : Int) : trunc (n : F) = n := by
  simp [trunc]

@[simp] theorem trunc_zero : trunc (0 : F) = 0 := by
  simpa using trunc_intCast (F := F) 0

@[simp] theorem trunc_one : trunc (1 : F) = 1 := by
  simpa using trunc_intCast (F := F) 1

@[simp] theorem trunc_ofNat (n : Nat) [n.AtLeastTwo] : trunc (ofNat(n) : F) = ofNat(n) := by
  simpa using trunc_intCast (F := F) (OfNat.ofNat n)

theorem abs_trunc_lt {b : Int} (h : |x| < b) : |trunc x| < b := by
  obtain ⟨hlo, hhi⟩ := abs_lt.mp h
  rw [trunc]
  split
  · rename_i h0
    rw [abs_of_nonneg (Int.floor_nonneg.mpr h0)]
    exact Int.floor_lt.mpr hhi
  · rename_i h0
    rw [abs_of_nonpos (Int.ceil_nonpos.mpr (le_of_lt (not_le.mp h0)))]
    have hceil : -b < ⌈x⌉ := Int.lt_ceil.mpr (by push_cast; exact hlo)
    omega

theorem abs_trunc_sub_lt (x : F) : |(trunc x : F) - x| < 1 := by
  rw [trunc, abs_lt]
  split
  · have hlo := Int.lt_floor_add_one x
    have hhi := Int.floor_le x
    constructor <;> linarith
  · have hlo := Int.le_ceil x
    have hhi := Int.ceil_lt_add_one x
    constructor <;> linarith

theorem abs_trunc_le (x : F) : |(trunc x : F)| ≤ |x| := by
  rw [trunc]
  split
  · rename_i h0
    have hfloor : (0 : F) ≤ ⌊x⌋ := by exact_mod_cast Int.floor_nonneg.mpr h0
    rw [abs_of_nonneg hfloor, abs_of_nonneg h0]
    exact Int.floor_le x
  · rename_i h0
    have hneg : x ≤ 0 := le_of_lt (not_le.mp h0)
    have hceil : (⌈x⌉ : F) ≤ 0 := by exact_mod_cast Int.ceil_nonpos.mpr hneg
    rw [abs_of_nonpos hceil, abs_of_nonpos hneg]
    exact neg_le_neg (Int.le_ceil x)

/-- The whole part of what is left when up to one is taken from a whole number. -/
theorem trunc_intCast_sub {n : Int} (h0 : 0 < x) (h1 : x ≤ 1) (hn : 0 < n) :
    trunc ((n : F) - x) = n - 1 := by
  have hn1 : (1 : F) ≤ n := by exact_mod_cast hn
  rw [trunc_of_nonneg (by linarith), Int.floor_eq_iff]
  push_cast
  exact ⟨by linarith, by linarith⟩

end Lib
