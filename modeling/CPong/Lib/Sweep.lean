import Mathlib.Algebra.Order.Field.Basic
import Mathlib.Order.Bounds.Basic
import Mathlib.Tactic.Linarith
import Mathlib.Tactic.Ring
import Mathlib.Topology.Algebra.Order.Field
import Mathlib.Topology.Order.DenselyOrdered

/-!
# A segment that moves along a line

A closed segment moves at a constant speed past a closed segment at rest. They have a point in
common from the time at which the leading end of the one comes to the other, and whenever the
leading end is at one of the two ends of the other.
-/

namespace Lib

set_option autoImplicit false

universe u

/-- The segment of centre `centre` and half-length `half` goes the way `way` in the unit of time;
the one at rest is between `lo` and `hi`. -/
structure Sweep (F : Type u) [Field F] [LinearOrder F] where
  centre : F
  way : F
  half : F
  lo : F
  hi : F
  half_nonneg : 0 ≤ half
  lo_le_hi : lo ≤ hi

namespace Sweep

variable {F : Type u} [Field F] [LinearOrder F] (s : Sweep F) (t : F)

def position : F := s.centre + s.way * t

def Meets : Prop := s.lo ≤ s.position t + s.half ∧ s.position t - s.half ≤ s.hi

/-- The end that goes ahead. -/
def lead : F := if s.way > 0 then s.position t + s.half else s.position t - s.half

def AtEnd : Prop := (0 < t ∧ t ≤ 1) ∧ s.way ≠ 0 ∧ (s.lead t = s.lo ∨ s.lead t = s.hi)

/-- The end of the other segment that a segment on its way to it comes to first. -/
def near : F := if s.way > 0 then s.lo else s.hi

/-- The open segments have a point in common. -/
def Crosses : Prop := s.lo < s.position t + s.half ∧ s.position t - s.half < s.hi

/-- At the start the segments have no more than an end in common, and they go apart. -/
def Leaves : Prop :=
  s.way < 0 ∧ s.centre + s.half = s.lo ∨ 0 < s.way ∧ s.centre - s.half = s.hi

/-- The segment goes on from its place at the time `a`, `k` times as fast. -/
def resume (a k : F) : Sweep F := { s with centre := s.position a, way := k * s.way }

/-- The line seen from the other side. -/
def flip [IsStrictOrderedRing F] : Sweep F where
  centre := -s.centre
  way := -s.way
  half := s.half
  lo := -s.hi
  hi := -s.lo
  half_nonneg := s.half_nonneg
  lo_le_hi := neg_le_neg s.lo_le_hi

variable [IsStrictOrderedRing F] {s t} {a b : F}

@[simp] theorem flip_way : s.flip.way = -s.way := rfl
@[simp] theorem flip_half : s.flip.half = s.half := rfl
@[simp] theorem flip_lo : s.flip.lo = -s.hi := rfl
@[simp] theorem flip_hi : s.flip.hi = -s.lo := rfl

@[simp] theorem flip_position : s.flip.position t = -s.position t := by
  simp only [position, flip]
  ring

theorem flip_meets : s.flip.Meets t ↔ s.Meets t := by
  unfold Meets
  rw [flip_position, flip_lo, flip_hi, flip_half]
  constructor
  · rintro ⟨hlo, hhi⟩
    constructor <;> linarith
  · rintro ⟨hlo, hhi⟩
    constructor <;> linarith

omit [IsStrictOrderedRing F] in
theorem lead_of_pos (hway : 0 < s.way) (t : F) : s.lead t = s.position t + s.half :=
  if_pos hway

omit [IsStrictOrderedRing F] in
theorem lead_of_neg (hway : s.way < 0) (t : F) : s.lead t = s.position t - s.half :=
  if_neg hway.not_gt

theorem flip_lead (hway : s.way ≠ 0) : s.flip.lead t = -s.lead t := by
  rcases lt_or_gt_of_ne hway with hneg | hpos
  · rw [lead_of_neg hneg, lead_of_pos (neg_pos.mpr hneg), flip_position, flip_half]
    ring
  · rw [lead_of_pos hpos, lead_of_neg (neg_neg_of_pos hpos), flip_position, flip_half]
    ring

omit [IsStrictOrderedRing F] in
theorem near_of_pos (hway : 0 < s.way) : s.near = s.lo :=
  if_pos hway

omit [IsStrictOrderedRing F] in
theorem near_of_neg (hway : s.way < 0) : s.near = s.hi :=
  if_neg hway.not_gt

theorem flip_near (hway : s.way ≠ 0) : s.flip.near = -s.near := by
  rcases lt_or_gt_of_ne hway with hneg | hpos
  · rw [near_of_neg hneg, near_of_pos (neg_pos.mpr hneg), flip_lo]
  · rw [near_of_pos hpos, near_of_neg (neg_neg_of_pos hpos), flip_hi]

theorem flip_crosses : s.flip.Crosses t ↔ s.Crosses t := by
  unfold Crosses
  rw [flip_position, flip_lo, flip_hi, flip_half]
  constructor
  · rintro ⟨hlo, hhi⟩
    constructor <;> linarith
  · rintro ⟨hlo, hhi⟩
    constructor <;> linarith

theorem flip_atEnd : s.flip.AtEnd t ↔ s.AtEnd t := by
  unfold AtEnd
  by_cases hway : s.way = 0
  · simp [hway]
  · rw [flip_lead hway, flip_lo, flip_hi, flip_way, neg_inj, neg_inj, neg_ne_zero, or_comm]

/-- With its leading end at an end of the other, the segment has that point in common with it. -/
theorem AtEnd.meets (h : s.AtEnd t) : s.Meets t := by
  obtain ⟨-, -, hend⟩ := h
  have hhalf := s.half_nonneg
  have hle := s.lo_le_hi
  unfold lead at hend
  split at hend
  · rcases hend with hend | hend
    · constructor <;> linarith
    · constructor <;> linarith
  · rcases hend with hend | hend
    · constructor <;> linarith
    · constructor <;> linarith

theorem Meets.between (ha : s.Meets a) (hb : s.Meets b) (hat : a ≤ t) (htb : t ≤ b) :
    s.Meets t := by
  obtain ⟨halo, hahi⟩ := ha
  obtain ⟨hblo, hbhi⟩ := hb
  unfold position at halo hahi hblo hbhi
  rcases le_total 0 s.way with hway | hway
  · have hforth := mul_le_mul_of_nonneg_left hat hway
    have hback := mul_le_mul_of_nonneg_left htb hway
    constructor
    · unfold position
      linarith
    · unfold position
      linarith
  · have hforth := mul_le_mul_of_nonpos_left hat hway
    have hback := mul_le_mul_of_nonpos_left htb hway
    constructor
    · unfold position
      linarith
    · unfold position
      linarith

theorem exists_first_of_pos (hway : 0 < s.way) (h0 : ¬ s.Meets 0) (ht : 0 ≤ t ∧ t ≤ 1)
    (hmeets : s.Meets t) :
    ∃ a ≤ t, IsLeast {u | s.AtEnd u} a ∧ s.lead a = s.near ∧
      ∀ u, 0 ≤ u → u < a → ¬ s.Meets u := by
  obtain ⟨hlo, hhi⟩ := hmeets
  have hbehind : s.centre + s.half < s.lo := by
    by_contra hnot
    have hforth := mul_nonneg hway.le ht.1
    unfold position at hhi
    apply h0
    unfold Meets position
    constructor <;> linarith
  have hgap : 0 < s.lo - s.half - s.centre := by linarith
  have hreach : s.way * ((s.lo - s.half - s.centre) / s.way) = s.lo - s.half - s.centre :=
    mul_div_cancel₀ _ hway.ne'
  have hat : (s.lo - s.half - s.centre) / s.way ≤ t := by
    rw [div_le_iff₀' hway]
    unfold position at hlo
    linarith
  have hlead : s.lead ((s.lo - s.half - s.centre) / s.way) = s.lo := by
    rw [lead_of_pos hway, position, hreach]
    ring
  refine ⟨_, hat, ⟨⟨⟨div_pos hgap hway, hat.trans ht.2⟩, hway.ne', Or.inl hlead⟩, ?_⟩,
    hlead.trans (near_of_pos hway).symm, ?_⟩
  · rintro u ⟨-, -, hend⟩
    rw [lead_of_pos hway, position] at hend
    have hle := s.lo_le_hi
    rw [div_le_iff₀' hway]
    rcases hend with hend | hend
    · linarith
    · linarith
  · rintro u - hu ⟨hulo, -⟩
    rw [lt_div_iff₀' hway] at hu
    unfold position at hulo
    linarith

/-- Segments that come together do so when the leading end first is at an end of the other. -/
theorem exists_first (h0 : ¬ s.Meets 0) (ht : 0 ≤ t ∧ t ≤ 1) (hmeets : s.Meets t) :
    ∃ a ≤ t, IsLeast {u | s.AtEnd u} a ∧ s.lead a = s.near ∧
      ∀ u, 0 ≤ u → u < a → ¬ s.Meets u := by
  rcases lt_trichotomy s.way 0 with hneg | hzero | hpos
  · have hflip : 0 < s.flip.way := neg_pos.mpr hneg
    obtain ⟨a, hat, hfirst, hnear, hbefore⟩ := exists_first_of_pos hflip (mt flip_meets.mp h0) ht
      (flip_meets.mpr hmeets)
    simp only [flip_atEnd, flip_meets] at hfirst hbefore
    rw [flip_lead hneg.ne, flip_near hneg.ne, neg_inj] at hnear
    exact ⟨a, hat, hfirst, hnear, hbefore⟩
  · refine absurd ?_ h0
    unfold Meets position at hmeets ⊢
    rwa [hzero, zero_mul] at hmeets ⊢
  · exact exists_first_of_pos hpos h0 ht hmeets

/-- Apart at the start, the segments are apart until the leading end is at an end. -/
theorem not_meets_of_first (h0 : ¬ s.Meets 0) (hfirst : IsLeast {u | s.AtEnd u} a) (ht : 0 ≤ t)
    (hta : t < a) : ¬ s.Meets t := by
  intro hmeets
  have hle : t ≤ 1 := hta.le.trans hfirst.1.1.2
  obtain ⟨b, hbt, hfirst', -⟩ := exists_first h0 ⟨ht, hle⟩ hmeets
  rw [IsLeast.unique hfirst hfirst'] at hta
  exact hta.not_ge hbt

/-- Apart at the start, the segments come together at the near end. -/
theorem lead_of_first (h0 : ¬ s.Meets 0) (hfirst : IsLeast {u | s.AtEnd u} a) :
    s.lead a = s.near := by
  obtain ⟨b, -, hfirst', hnear, -⟩ := exists_first h0 ⟨hfirst.1.1.1.le, hfirst.1.1.2⟩ hfirst.1.meets
  rwa [IsLeast.unique hfirst hfirst']

omit [IsStrictOrderedRing F] in
theorem Crosses.meets (h : s.Crosses t) : s.Meets t := ⟨h.1.le, h.2.le⟩

theorem crosses_of_meets_of_pos (hway : 0 < s.way) (hhalf : 0 < s.half) (h0 : s.Meets 0)
    (hend : s.AtEnd a) (ht : 0 < t) (hta : t ≤ a) : s.Crosses t := by
  obtain ⟨-, -, hlead⟩ := hend
  have hle := s.lo_le_hi
  have hforth := mul_pos hway ht
  have hback := mul_le_mul_of_nonneg_left hta hway.le
  have hlo := h0.1
  rw [lead_of_pos hway] at hlead
  unfold position at hlo hlead
  unfold Crosses position
  rcases hlead with hlead | hlead
  · constructor <;> linarith
  · constructor <;> linarith

/-- Together at the start, the segments cross until the leading end is at an end. -/
theorem crosses_of_meets (hhalf : 0 < s.half) (h0 : s.Meets 0) (hend : s.AtEnd a) (ht : 0 < t)
    (hta : t ≤ a) : s.Crosses t := by
  rcases lt_or_gt_of_ne hend.2.1 with hneg | hpos
  · rw [← flip_crosses]
    exact crosses_of_meets_of_pos (neg_pos.mpr hneg) hhalf (flip_meets.mpr h0)
      (flip_atEnd.mpr hend) ht hta
  · exact crosses_of_meets_of_pos hpos hhalf h0 hend ht hta

/-- Segments that go apart have nothing in common any more. -/
theorem Leaves.not_meets (h : s.Leaves) (ht : 0 < t) : ¬ s.Meets t := by
  rintro ⟨hlo, hhi⟩
  unfold position at hlo hhi
  rcases h with ⟨hway, hend⟩ | ⟨hway, hend⟩
  · have hback := mul_neg_of_neg_of_pos hway ht
    linarith
  · have hforth := mul_pos hway ht
    linarith

theorem Leaves.not_crosses (h : s.Leaves) (ht : 0 ≤ t) : ¬ s.Crosses t := by
  rcases ht.eq_or_lt with rfl | hpos
  · rintro ⟨hlo, hhi⟩
    unfold position at hlo hhi
    rcases h with ⟨-, hend⟩ | ⟨-, hend⟩
    · linarith
    · linarith
  · exact fun hcross => h.not_meets hpos hcross.meets

section Resume
variable {k : F}

omit [IsStrictOrderedRing F] in
theorem resume_position_zero : (s.resume a k).position 0 = s.position a := by
  simp [position, resume]

omit [IsStrictOrderedRing F] in
theorem resume_crosses_zero : (s.resume a k).Crosses 0 ↔ s.Crosses a := by
  unfold Crosses
  rw [resume_position_zero]
  rfl

/-- Turned back at the near end, the segment goes apart from the other. -/
theorem leaves_of_turn (hk : k < 0) (hway : s.way ≠ 0) (hlead : s.lead a = s.near) :
    (s.resume a k).Leaves := by
  rcases lt_or_gt_of_ne hway with hneg | hpos
  · rw [lead_of_neg hneg, near_of_neg hneg] at hlead
    exact Or.inr ⟨mul_pos_of_neg_of_neg hk hneg, hlead⟩
  · rw [lead_of_pos hpos, near_of_pos hpos] at hlead
    exact Or.inl ⟨mul_neg_of_neg_of_pos hk hpos, hlead⟩

theorem resume_lead_zero (hk : 0 < k) : (s.resume a k).lead 0 = s.lead a := by
  unfold lead
  rw [resume_position_zero]
  simp only [resume, gt_iff_lt, mul_pos_iff_of_pos_left hk]

theorem resume_near (hk : 0 < k) : (s.resume a k).near = s.near := by
  unfold near
  simp only [resume, gt_iff_lt, mul_pos_iff_of_pos_left hk]

end Resume

section Soon
open Filter Topology

variable [TopologicalSpace F] [OrderTopology F] [IsTopologicalRing F] {r : Sweep F}

omit [IsStrictOrderedRing F] [OrderTopology F] in
theorem continuous_position (s : Sweep F) : Continuous s.position :=
  continuous_const.add (continuous_const.mul continuous_id)

omit [IsStrictOrderedRing F] in
theorem isOpen_crosses (s : Sweep F) : IsOpen {t | s.Crosses t} := by
  apply IsOpen.inter
  · exact isOpen_lt continuous_const (s.continuous_position.add continuous_const)
  · exact isOpen_lt (s.continuous_position.sub continuous_const) continuous_const

/-- Two pairs of segments that cross at one time have met before it, at one time. -/
theorem exists_meets_before (hs : s.Crosses a) (hr : r.Crosses a) (ha : 0 < a) :
    ∃ u, 0 ≤ u ∧ u < a ∧ s.Meets u ∧ r.Meets u := by
  have hboth : ∀ᶠ u in 𝓝 a, s.Crosses u ∧ r.Crosses u :=
    (s.isOpen_crosses.eventually_mem hs).and (r.isOpen_crosses.eventually_mem hr)
  obtain ⟨u, ⟨hsu, hru⟩, hpos, hlt⟩ :=
    ((hboth.filter_mono nhdsWithin_le_nhds).and (Ioo_mem_nhdsLT ha)).exists
  exact ⟨u, hpos.le, hlt, hsu.meets, hru.meets⟩

omit [IsStrictOrderedRing F] in
theorem Crosses.soon (h : s.Crosses 0) : ∀ᶠ u in 𝓝[>] 0, s.Crosses u :=
  (s.isOpen_crosses.eventually_mem h).filter_mono nhdsWithin_le_nhds

/-- A segment that goes on from the near end crosses the other. -/
theorem crosses_soon (hhalf : 0 < s.half) (hway : s.way ≠ 0) (hlead : s.lead 0 = s.near) :
    ∀ᶠ u in 𝓝[>] 0, s.Crosses u := by
  have hle := s.lo_le_hi
  rcases lt_or_gt_of_ne hway with hneg | hpos
  · rw [lead_of_neg hneg, near_of_neg hneg] at hlead
    have hopen : IsOpen {t | s.lo < s.position t + s.half} :=
      isOpen_lt continuous_const (s.continuous_position.add continuous_const)
    filter_upwards [nhdsWithin_le_nhds (hopen.mem_nhds (show s.lo < _ by linarith)),
      self_mem_nhdsWithin] with u hlo hu
    refine ⟨hlo, ?_⟩
    have hway := mul_neg_of_neg_of_pos hneg hu
    unfold position at hlead ⊢
    linarith
  · rw [lead_of_pos hpos, near_of_pos hpos] at hlead
    have hopen : IsOpen {t | s.position t - s.half < s.hi} :=
      isOpen_lt (s.continuous_position.sub continuous_const) continuous_const
    filter_upwards [nhdsWithin_le_nhds (hopen.mem_nhds (show _ < s.hi by linarith)),
      self_mem_nhdsWithin] with u hhi hu
    refine ⟨?_, hhi⟩
    have hway := mul_pos hpos hu
    unfold position at hlead ⊢
    linarith

end Soon

end Sweep

end Lib
