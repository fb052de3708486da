import Mathlib.Algebra.Order.Field.Basic
import Mathlib.Data.Finset.Max
import Mathlib.Data.Finset.Prod
import Mathlib.Tactic.Linarith
import Mathlib.Tactic.Ring

/-!
# A point turning at stations

A point moves on a line and turns round only at stations, a finite set of places. Two
turns in a row are at different stations, so every turn but the first costs at least the
smallest distance between two of them.
-/

namespace Lib

set_option autoImplicit false

variable {F : Type} [Field F] [LinearOrder F] [IsStrictOrderedRing F]

/-- Places of `S` that differ are at least `gap` apart. -/
structure Spaced (S : Finset F) (gap : F) : Prop where
  pos : 0 < gap
  le : ∀ a ∈ S, ∀ b ∈ S, a ≠ b → gap ≤ |a - b|

omit [IsStrictOrderedRing F] in
theorem Spaced.smaller {S : Finset F} {gap gap' : F} (h : Spaced S gap) (hpos : 0 < gap')
    (hle : gap' ≤ gap) : Spaced S gap' :=
  ⟨hpos, fun a ha b hb hab => hle.trans (h.le a ha b hb hab)⟩

theorem exists_spaced (S : Finset F) : ∃ gap, Spaced S gap := by
  by_cases hne : S.offDiag.Nonempty
  · obtain ⟨p, hp, hmin⟩ := S.offDiag.exists_min_image (fun q => |q.1 - q.2|) hne
    have hdiff := (Finset.mem_offDiag.mp hp).2.2
    refine ⟨|p.1 - p.2|, abs_pos.mpr (sub_ne_zero.mpr hdiff), ?_⟩
    intro a ha b hb hab
    exact hmin (a, b) (Finset.mem_offDiag.mpr ⟨ha, hb, hab⟩)
  · refine ⟨1, one_pos, ?_⟩
    intro a ha b hb hab
    exact absurd ⟨(a, b), Finset.mem_offDiag.mpr ⟨ha, hb, hab⟩⟩ hne

/-- A point at `p` with velocity `v` that has turned `n` times on a way of length `d`,
and has not turned since it left the last station. -/
structure Trail (S : Finset F) (gap : F) (n : Nat) (d p v : F) : Prop where
  nonneg : 0 ≤ d
  left : n = 0 ∨ ∃ l ∈ S, 0 ≤ (p - l) * v ∧ (n - 1) * gap + |p - l| ≤ d

variable {S : Finset F} {gap d d' p v t c : F} {n : Nat}

omit [IsStrictOrderedRing F] in
theorem Trail.start (p v : F) : Trail S gap 0 0 p v :=
  ⟨le_rfl, Or.inl rfl⟩

omit [IsStrictOrderedRing F] in
theorem Trail.longer (h : Trail S gap n d p v) (hd : d ≤ d') : Trail S gap n d' p v := by
  refine ⟨h.nonneg.trans hd, h.left.imp_right ?_⟩
  rintro ⟨l, hl, hv, hle⟩
  exact ⟨l, hl, hv, hle.trans hd⟩

theorem Trail.scale (h : Trail S gap n d p v) (hc : 0 ≤ c) : Trail S gap n d p (c * v) := by
  refine ⟨h.nonneg, h.left.imp_right ?_⟩
  rintro ⟨l, hl, hv, hle⟩
  refine ⟨l, hl, ?_, hle⟩
  rw [mul_left_comm]
  exact mul_nonneg hc hv

theorem abs_add_of_same_way {a b v : F} (hv : v ≠ 0) (ha : 0 ≤ a * v) (hb : 0 ≤ b * v) :
    |a + b| = |a| + |b| := by
  rcases lt_or_gt_of_ne hv with hneg | hpos
  · have ha' : a ≤ 0 := by nlinarith
    have hb' : b ≤ 0 := by nlinarith
    rw [abs_of_nonpos ha', abs_of_nonpos hb', abs_of_nonpos (add_nonpos ha' hb')]
    ring
  · have ha' : 0 ≤ a := by nlinarith
    have hb' : 0 ≤ b := by nlinarith
    rw [abs_of_nonneg ha', abs_of_nonneg hb', abs_of_nonneg (add_nonneg ha' hb')]

theorem Trail.move (h : Trail S gap n d p v) (ht : 0 ≤ t) :
    Trail S gap n (d + |v * t|) (p + v * t) v := by
  refine ⟨add_nonneg h.nonneg (abs_nonneg _), h.left.imp_right ?_⟩
  rintro ⟨l, hl, hpl, hle⟩
  by_cases hv : v = 0
  · subst hv
    exact ⟨l, hl, by simp, by simpa using hle⟩
  · have hm : 0 ≤ v * t * v := by
      rw [mul_right_comm]
      exact mul_nonneg (mul_self_nonneg v) ht
    refine ⟨l, hl, by linarith, ?_⟩
    have hlen := abs_add_of_same_way hv hpl hm
    rw [show p + v * t - l = p - l + v * t by ring, hlen]
    linarith

/-- A turn at a station: the point has left the station before, so it comes to another. -/
theorem Trail.turn (h : Trail S gap n d p v) (hS : Spaced S gap) (hv : v ≠ 0) (ht : 0 < t)
    (hst : p + v * t ∈ S) (v' : F) : Trail S gap (n + 1) (d + |v * t|) (p + v * t) v' := by
  have hnn := add_nonneg h.nonneg (abs_nonneg (v * t))
  have hm : 0 < v * t * v := by
    rw [mul_right_comm]
    exact mul_pos (mul_self_pos.mpr hv) ht
  refine ⟨hnn, Or.inr ⟨p + v * t, hst, by simp, ?_⟩⟩
  rcases h.left with rfl | ⟨l, hl, hpl, hle⟩
  · simpa using hnn
  · have hlen : |p + v * t - l| = |p - l| + |v * t| := by
      rw [show p + v * t - l = p - l + v * t by ring]
      exact abs_add_of_same_way hv hpl hm.le
    have hne : p + v * t ≠ l := by
      rintro rfl
      simp at hpl
      linarith
    have hgap := hS.le _ hst _ hl hne
    rw [hlen] at hgap
    push_cast
    simp only [add_sub_cancel_right, sub_self, abs_zero, add_zero]
    linarith

theorem Trail.count (h : Trail S gap n d p v) (hgap : 0 ≤ gap) : n * gap ≤ d + gap := by
  rcases h.left with rfl | ⟨l, -, -, hle⟩
  · simpa using add_nonneg h.nonneg hgap
  · linarith [abs_nonneg (p - l)]

end Lib
