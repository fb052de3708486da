import Mathlib.Tactic.Ring

/-!
# A clock that wraps

The readings of a clock of unbounded value through a signed word, and the times between
them.
-/

namespace Lib.WrappedClock

set_option autoImplicit false

variable {w v : Nat} {t u : Int}

theorem ofInt_sub (w : Nat) (t u : Int) :
    BitVec.ofInt w t - BitVec.ofInt w u = BitVec.ofInt w (t - u) := by
  rw [BitVec.sub_eq_add_neg, ← BitVec.ofInt_neg, ← BitVec.ofInt_add, ← Int.sub_eq_add_neg]

/-- Half the range of the word at most, and the difference of two readings is the time between
them, whether or not the clock has wrapped. -/
theorem toInt_ofInt_sub (hw : 0 < w) (hle : t ≤ u) (hlt : u - t < 2 ^ (w - 1)) :
    (BitVec.ofInt w u - BitVec.ofInt w t).toInt = u - t := by
  have hlo : (-2 ^ (w - 1) : Int) ≤ u - t := by
    have hpos : (0 : Int) ≤ 2 ^ (w - 1) := Int.pow_nonneg (by decide)
    omega
  rw [ofInt_sub, BitVec.toInt_ofInt_eq_self hw hlo hlt]

/-- A time fits in a word, as a number that is not negative, if it is within half the range. -/
theorem toInt_ofInt_exact_iff (hw : 0 < w) :
    (BitVec.ofInt w t).toInt = t ∧ 0 ≤ (BitVec.ofInt w t).toInt ↔ 0 ≤ t ∧ t < 2 ^ (w - 1) := by
  constructor
  · intro h
    obtain ⟨hexact, hpos⟩ := h
    have hlt := BitVec.toInt_lt (x := BitVec.ofInt w t)
    rw [hexact] at hpos hlt
    exact ⟨hpos, hlt⟩
  · intro hrange
    have hhalf : (0 : Int) ≤ 2 ^ (w - 1) := Int.pow_nonneg (by decide)
    have hexact : (BitVec.ofInt w t).toInt = t :=
      BitVec.toInt_ofInt_eq_self hw (by omega) hrange.2
    exact ⟨hexact, hexact.symm ▸ hrange.1⟩

theorem setWidth_ofInt (h : w ≤ v) (t : Int) :
    (BitVec.ofInt v t).setWidth w = BitVec.ofInt w t := by
  have hdvd : ((2 ^ w : Nat) : Int) ∣ ((2 ^ v : Nat) : Int) := by
    exact_mod_cast Nat.pow_dvd_pow 2 h
  have hne : ((2 ^ v : Nat) : Int) ≠ 0 := by exact_mod_cast (Nat.two_pow_pos v).ne'
  have hmod : (0 : Int) ≤ t % ((2 ^ v : Nat) : Int) := Int.emod_nonneg t hne
  apply BitVec.eq_of_toInt_eq
  rw [BitVec.toInt_setWidth, BitVec.toNat_ofInt, Int.toNat_of_nonneg hmod, BitVec.toInt_ofInt,
    Int.bmod_def, Int.emod_emod_of_dvd _ hdvd, ← Int.bmod_def]

/-- A difference taken in a wider type and cut to the word is the difference of words. -/
theorem setWidth_ofInt_sub (h : w ≤ v) (t : Int) (x : BitVec v) :
    (BitVec.ofInt v t - x).setWidth w = BitVec.ofInt w (t - x.toInt) := by
  rw [← setWidth_ofInt h, ← ofInt_sub, BitVec.ofInt_toInt]

/-- The times between consecutive readings. -/
def laps : Int → List Int → List Int
  | _, [] => []
  | t, u :: us => (u - t) :: laps u us

@[simp] theorem length_laps (t : Int) (us : List Int) : (laps t us).length = us.length := by
  induction us generalizing t with
  | nil => rfl
  | cons u us ih => rw [laps, List.length_cons, ih, List.length_cons]

/-- The laps lose and repeat nothing. -/
theorem sum_laps (t : Int) (us : List Int) : (laps t us).sum = us.getLastD t - t := by
  induction us generalizing t with
  | nil => simp [laps]
  | cons u us ih =>
    rw [laps, List.sum_cons, ih, List.getLastD_cons]
    omega

end Lib.WrappedClock
