import CPong.Contacts
import CPong.Lib.Sweep

/-!
# The test of a box at rest

Against a box at rest with faces at whole numbers, `AABB_collide` finds the first moment of the
tick at which the boxes touch.
-/

namespace CPong

set_option autoImplicit false

open Lib (trunc Sweep)

section Resting
variable {F : Type} [Field F] [LinearOrder F]

/-- A box at rest with faces at whole numbers, which are the same as an `int`. -/
structure Resting (obj : GameObj F) : Prop where
  still : obj.velocity = ⟨0, 0⟩
  xFaces : ∃ l r : Int, (aabbGetBoundaries obj).left = l ∧ (aabbGetBoundaries obj).right = r
  yFaces : ∃ d u : Int, (aabbGetBoundaries obj).down = d ∧ (aabbGetBoundaries obj).up = u

/-- Neither side of the box is negative. -/
def Sized (obj : GameObj F) : Prop := 0 ≤ obj.size.x ∧ 0 ≤ obj.size.y

instance (obj : GameObj F) : Decidable (Sized obj) := inferInstanceAs (Decidable (_ ∧ _))

variable (obj1 obj2 : GameObj F) (deltaTime : Int)

/-- The boxes have no `x` in common before the part `τ` of the tick. -/
def ApartX (τ : F) : Prop :=
  ∀ t, 0 ≤ t → t < τ → ¬ MeetsX (partWay obj1 deltaTime t) (partWay obj2 deltaTime t)

def ApartY (τ : F) : Prop :=
  ∀ t, 0 ≤ t → t < τ → ¬ MeetsY (partWay obj1 deltaTime t) (partWay obj2 deltaTime t)

def TouchAt (τ : F) : Prop := Touch (partWay obj1 deltaTime τ) (partWay obj2 deltaTime τ)

/-- The unit vector along an axis on which the boxes come together at the time `r.toi`, against
the motion of the first one. -/
def OpposesEntry (r : CollInfo F) : Prop :=
  ApartX obj1 obj2 deltaTime r.toi ∧ obj1.velocity.x ≠ 0 ∧
      r.normal = ⟨if obj1.velocity.x > 0 then -1 else 1, 0⟩ ∨
    ApartY obj1 obj2 deltaTime r.toi ∧ obj1.velocity.y ≠ 0 ∧
      r.normal = ⟨0, if obj1.velocity.y > 0 then -1 else 1⟩

variable [FloorRing F]

/-- What is reported is the first touch of the tick, if there is one. -/
structure FindsFirstTouch : Prop where
  verdict : ∀ c, (aabbCollide obj1 obj2 deltaTime c).1 = true ↔
    ∃ t, 0 ≤ t ∧ t ≤ 1 ∧ TouchAt obj1 obj2 deltaTime t
  first : ∀ c, (aabbCollide obj1 obj2 deltaTime c).1 = true →
    IsLeast {t | (0 < t ∧ t ≤ 1) ∧ TouchAt obj1 obj2 deltaTime t}
      (aabbCollide obj1 obj2 deltaTime c).2.toi
  pos : ∀ c, (aabbCollide obj1 obj2 deltaTime c).1 = true →
    (aabbCollide obj1 obj2 deltaTime c).2.pos =
      (partWay obj1 deltaTime (aabbCollide obj1 obj2 deltaTime c).2.toi).pos

/-- An exact swept test, with the right normal as well. -/
structure ExactTest : Prop extends FindsFirstTouch obj1 obj2 deltaTime where
  normal : ∀ c, (aabbCollide obj1 obj2 deltaTime c).1 = true →
    OpposesEntry obj1 obj2 deltaTime (aabbCollide obj1 obj2 deltaTime c).2

/-- The boxes have an `x` in common when the tick begins, and the first box comes to a vertical
face, which is then the far one, at the moment at which it comes to a horizontal one. -/
def LeavesAtCorner : Prop :=
  MeetsX obj1 obj2 ∧ ∃ τ, FirstX obj1 obj2 deltaTime τ ∧ FirstY obj1 obj2 deltaTime τ

end Resting

section Axis
variable {F : Type} [Field F] [LinearOrder F] [IsStrictOrderedRing F] {obj1 obj2 : GameObj F}

/-- The first box on the horizontal axis, past the second. -/
def xSweep (h1 : Sized obj1) (h2 : Sized obj2) (deltaTime : Int) : Sweep F where
  centre := obj1.pos.x
  way := obj1.velocity.x * deltaTime
  half := obj1.size.x / 2
  lo := (aabbGetBoundaries obj2).left
  hi := (aabbGetBoundaries obj2).right
  half_nonneg := div_nonneg h1.1 zero_le_two
  lo_le_hi := by
    have hsize := h2.1
    unfold aabbGetBoundaries
    dsimp only
    linarith

def ySweep (h1 : Sized obj1) (h2 : Sized obj2) (deltaTime : Int) : Sweep F where
  centre := obj1.pos.y
  way := obj1.velocity.y * deltaTime
  half := obj1.size.y / 2
  lo := (aabbGetBoundaries obj2).down
  hi := (aabbGetBoundaries obj2).up
  half_nonneg := div_nonneg h1.2 zero_le_two
  lo_le_hi := by
    have hsize := h2.2
    unfold aabbGetBoundaries
    dsimp only
    linarith

variable (h1 : Sized obj1) (h2 : Sized obj2) {deltaTime : Int} {t u : F}

theorem xSweep_position :
    (xSweep h1 h2 deltaTime).position t = (partWay obj1 deltaTime t).pos.x := by
  rw [partWay_pos]
  simp only [Sweep.position, xSweep]
  ring

theorem ySweep_position :
    (ySweep h1 h2 deltaTime).position t = (partWay obj1 deltaTime t).pos.y := by
  rw [partWay_pos]
  simp only [Sweep.position, ySweep]
  ring

theorem xSweep_meets (hstill : obj2.velocity = ⟨0, 0⟩) : (xSweep h1 h2 deltaTime).Meets t ↔
    MeetsX (partWay obj1 deltaTime t) (partWay obj2 deltaTime u) := by
  unfold Sweep.Meets
  rw [xSweep_position, meetsX_iff, partWay_pos obj2]
  simp [hstill, xSweep, aabbGetBoundaries]

theorem ySweep_meets (hstill : obj2.velocity = ⟨0, 0⟩) : (ySweep h1 h2 deltaTime).Meets t ↔
    MeetsY (partWay obj1 deltaTime t) (partWay obj2 deltaTime u) := by
  unfold Sweep.Meets
  rw [ySweep_position, meetsY_iff, partWay_pos obj2]
  simp [hstill, ySweep, aabbGetBoundaries]

section Meets
include h1 h2
variable {a b : F} (hstill : obj2.velocity = ⟨0, 0⟩)
include hstill

theorem meetsX_between (ha : MeetsX (partWay obj1 deltaTime a) (partWay obj2 deltaTime a))
    (hb : MeetsX (partWay obj1 deltaTime b) (partWay obj2 deltaTime b)) (hat : a ≤ t)
    (htb : t ≤ b) : MeetsX (partWay obj1 deltaTime t) (partWay obj2 deltaTime t) := by
  rw [← xSweep_meets h1 h2 hstill] at ha hb ⊢
  exact ha.between hb hat htb

theorem meetsY_between (ha : MeetsY (partWay obj1 deltaTime a) (partWay obj2 deltaTime a))
    (hb : MeetsY (partWay obj1 deltaTime b) (partWay obj2 deltaTime b)) (hat : a ≤ t)
    (htb : t ≤ b) : MeetsY (partWay obj1 deltaTime t) (partWay obj2 deltaTime t) := by
  rw [← ySweep_meets h1 h2 hstill] at ha hb ⊢
  exact ha.between hb hat htb

theorem not_meetsX_zero (h0 : ¬ MeetsX obj1 obj2) : ¬ (xSweep h1 h2 deltaTime).Meets 0 := by
  rwa [xSweep_meets h1 h2 hstill (u := 0), partWay_zero, partWay_zero]

theorem not_meetsY_zero (h0 : ¬ MeetsY obj1 obj2) : ¬ (ySweep h1 h2 deltaTime).Meets 0 := by
  rwa [ySweep_meets h1 h2 hstill (u := 0), partWay_zero, partWay_zero]

end Meets

variable [FloorRing F]

theorem mem_xFaces (hrest : Resting obj2) (x : F) : (∃ n ∈ xFaces obj2, x = n) ↔
    x = (aabbGetBoundaries obj2).left ∨ x = (aabbGetBoundaries obj2).right := by
  obtain ⟨l, r, hl, hr⟩ := hrest.xFaces
  simp [xFaces, hl, hr]

theorem mem_yFaces (hrest : Resting obj2) (y : F) : (∃ n ∈ yFaces obj2, y = n) ↔
    y = (aabbGetBoundaries obj2).down ∨ y = (aabbGetBoundaries obj2).up := by
  obtain ⟨d, u, hd, hu⟩ := hrest.yFaces
  simp [yFaces, hd, hu, or_comm]

theorem xSweep_lead (hdt : 0 < deltaTime) :
    (xSweep h1 h2 deltaTime).lead t =
      (partWay obj1 deltaTime t).pos.x + dirOf obj1.velocity.x * obj1.size.x / 2 := by
  have ht : (0 : F) < deltaTime := by exact_mod_cast hdt
  unfold Sweep.lead dirOf
  rw [xSweep_position]
  simp only [xSweep, gt_iff_lt, mul_pos_iff_of_pos_right ht]
  split
  · push_cast
    ring
  · push_cast
    ring

theorem ySweep_lead (hdt : 0 < deltaTime) :
    (ySweep h1 h2 deltaTime).lead t =
      (partWay obj1 deltaTime t).pos.y + dirOf obj1.velocity.y * obj1.size.y / 2 := by
  have ht : (0 : F) < deltaTime := by exact_mod_cast hdt
  unfold Sweep.lead dirOf
  rw [ySweep_position]
  simp only [ySweep, gt_iff_lt, mul_pos_iff_of_pos_right ht]
  split
  · push_cast
    ring
  · push_cast
    ring

theorem reachesX_iff (hdt : 0 < deltaTime) (hrest : Resting obj2) :
    ReachesX obj1 obj2 deltaTime t ↔ (xSweep h1 h2 deltaTime).AtEnd t := by
  have ht : (deltaTime : F) ≠ 0 := by exact_mod_cast hdt.ne'
  have hcontact (x : Int) : (partWay obj1 deltaTime t).pos.x = contactX obj1 x ↔
      (xSweep h1 h2 deltaTime).lead t = x := by
    rw [xSweep_lead h1 h2 hdt, contactX, eq_sub_iff_add_eq]
  unfold ReachesX Sweep.AtEnd
  simp only [hcontact, mem_xFaces hrest]
  simp only [xSweep, mul_ne_zero_iff, ne_eq, ht, not_false_eq_true, and_true]

theorem reachesY_iff (hdt : 0 < deltaTime) (hrest : Resting obj2) :
    ReachesY obj1 obj2 deltaTime t ↔ (ySweep h1 h2 deltaTime).AtEnd t := by
  have ht : (deltaTime : F) ≠ 0 := by exact_mod_cast hdt.ne'
  have hcontact (y : Int) : (partWay obj1 deltaTime t).pos.y = contactY obj1 y ↔
      (ySweep h1 h2 deltaTime).lead t = y := by
    rw [ySweep_lead h1 h2 hdt, contactY, eq_sub_iff_add_eq]
  unfold ReachesY Sweep.AtEnd
  simp only [hcontact, mem_yFaces hrest]
  simp only [ySweep, mul_ne_zero_iff, ne_eq, ht, not_false_eq_true, and_true]

end Axis

section Touching
variable {F : Type} [Field F] [LinearOrder F] [IsStrictOrderedRing F] [FloorRing F]
  {obj1 obj2 : GameObj F} {deltaTime : Int} {t u τ : F}
  (hdt : 0 < deltaTime) (h1 : Sized obj1) (h2 : Sized obj2) (hrest : Resting obj2)
include hdt h1 h2 hrest

theorem firstX_iff : FirstX obj1 obj2 deltaTime τ ↔
    IsLeast {t | (xSweep h1 h2 deltaTime).AtEnd t} τ := by
  unfold FirstX
  simp only [reachesX_iff h1 h2 hdt hrest]

theorem firstY_iff : FirstY obj1 obj2 deltaTime τ ↔
    IsLeast {t | (ySweep h1 h2 deltaTime).AtEnd t} τ := by
  unfold FirstY
  simp only [reachesY_iff h1 h2 hdt hrest]

theorem FirstX.meets (h : FirstX obj1 obj2 deltaTime τ) (t : F) :
    MeetsX (partWay obj1 deltaTime τ) (partWay obj2 deltaTime t) := by
  rw [firstX_iff hdt h1 h2 hrest] at h
  exact (xSweep_meets h1 h2 hrest.still).mp h.1.meets

theorem FirstY.meets (h : FirstY obj1 obj2 deltaTime τ) (t : F) :
    MeetsY (partWay obj1 deltaTime τ) (partWay obj2 deltaTime t) := by
  rw [firstY_iff hdt h1 h2 hrest] at h
  exact (ySweep_meets h1 h2 hrest.still).mp h.1.meets

/-- Boxes that come together along an axis do so when the leading side first is at a face. -/
theorem exists_firstX (h0 : ¬ MeetsX obj1 obj2) (ht : 0 ≤ t ∧ t ≤ 1)
    (hmeets : MeetsX (partWay obj1 deltaTime t) (partWay obj2 deltaTime t)) :
    ∃ τ ≤ t, FirstX obj1 obj2 deltaTime τ ∧ ApartX obj1 obj2 deltaTime τ := by
  rw [← xSweep_meets h1 h2 hrest.still] at hmeets
  obtain ⟨τ, hτ, hfirst, -, hbefore⟩ :=
    Sweep.exists_first (not_meetsX_zero h1 h2 hrest.still h0) ht hmeets
  refine ⟨τ, hτ, (firstX_iff hdt h1 h2 hrest).mpr hfirst, ?_⟩
  intro u h0u huτ
  rw [← xSweep_meets h1 h2 hrest.still]
  exact hbefore u h0u huτ

theorem exists_firstY (h0 : ¬ MeetsY obj1 obj2) (ht : 0 ≤ t ∧ t ≤ 1)
    (hmeets : MeetsY (partWay obj1 deltaTime t) (partWay obj2 deltaTime t)) :
    ∃ τ ≤ t, FirstY obj1 obj2 deltaTime τ ∧ ApartY obj1 obj2 deltaTime τ := by
  rw [← ySweep_meets h1 h2 hrest.still] at hmeets
  obtain ⟨τ, hτ, hfirst, -, hbefore⟩ :=
    Sweep.exists_first (not_meetsY_zero h1 h2 hrest.still h0) ht hmeets
  refine ⟨τ, hτ, (firstY_iff hdt h1 h2 hrest).mpr hfirst, ?_⟩
  intro u h0u huτ
  rw [← ySweep_meets h1 h2 hrest.still]
  exact hbefore u h0u huτ

theorem FirstX.apart (h : FirstX obj1 obj2 deltaTime τ) (h0 : ¬ MeetsX obj1 obj2) :
    ApartX obj1 obj2 deltaTime τ := by
  intro u h0u huτ
  rw [← xSweep_meets h1 h2 hrest.still]
  exact Sweep.not_meets_of_first (not_meetsX_zero h1 h2 hrest.still h0)
    ((firstX_iff hdt h1 h2 hrest).mp h) h0u huτ

omit hdt in
theorem FirstX.candidate {a : F} (h : FirstX obj1 obj2 deltaTime τ)
    (ha : MeetsY (partWay obj1 deltaTime a) (partWay obj2 deltaTime a)) (haτ : a ≤ τ)
    (ht : MeetsY (partWay obj1 deltaTime t) (partWay obj2 deltaTime t)) (hτt : τ ≤ t) (u : F) :
    CandidateX obj1 obj2 deltaTime u τ := by
  have hstill : obj2.velocity.y = 0 := by rw [hrest.still]
  have hmeets := meetsY_between h1 h2 hrest.still ha ht haτ hτt
  exact ⟨h, (meetsY_of_still hstill τ u).mp hmeets⟩

omit hdt in
theorem FirstY.candidate {a : F} (h : FirstY obj1 obj2 deltaTime τ)
    (ha : MeetsX (partWay obj1 deltaTime a) (partWay obj2 deltaTime a)) (haτ : a ≤ τ)
    (ht : MeetsX (partWay obj1 deltaTime t) (partWay obj2 deltaTime t)) (hτt : τ ≤ t) (u : F) :
    CandidateY obj1 obj2 deltaTime u τ := by
  have hstill : obj2.velocity.x = 0 := by rw [hrest.still]
  have hmeets := meetsX_between h1 h2 hrest.still ha ht haτ hτt
  exact ⟨h, (meetsX_of_still hstill τ u).mp hmeets⟩

/-- Up to any touch of boxes that are apart when the tick begins, the face of an axis on which
they come together is a candidate. -/
theorem touch_candidate (hapart : ¬ Touch obj1 obj2) (ht : 0 ≤ t ∧ t ≤ 1)
    (htouch : TouchAt obj1 obj2 deltaTime t) (u : F) :
    ∃ τ ≤ t, CandidateX obj1 obj2 deltaTime u τ ∧ ApartX obj1 obj2 deltaTime τ ∨
      CandidateY obj1 obj2 deltaTime u τ ∧ ApartY obj1 obj2 deltaTime τ := by
  have hstart (obj : GameObj F) : partWay obj deltaTime 0 = obj := partWay_zero obj deltaTime
  by_cases hx : MeetsX obj1 obj2
  · have hy : ¬ MeetsY obj1 obj2 := fun hy => hapart ⟨hx, hy⟩
    obtain ⟨τ, hτ, hfirst, happear⟩ := exists_firstY hdt h1 h2 hrest hy ht htouch.2
    rw [← hstart obj1, ← hstart obj2] at hx
    exact ⟨τ, hτ, Or.inr ⟨hfirst.candidate h1 h2 hrest hx hfirst.1.1.1.le htouch.1 hτ u,
      happear⟩⟩
  · obtain ⟨σ, hσ, hfirst, happear⟩ := exists_firstX hdt h1 h2 hrest hx ht htouch.1
    by_cases hy : MeetsY obj1 obj2
    · rw [← hstart obj1, ← hstart obj2] at hy
      exact ⟨σ, hσ, Or.inl ⟨hfirst.candidate h1 h2 hrest hy hfirst.1.1.1.le htouch.2 hσ u,
        happear⟩⟩
    · obtain ⟨τ, hτ, hfirst', happear'⟩ := exists_firstY hdt h1 h2 hrest hy ht htouch.2
      have hmeetsX := hfirst.meets hdt h1 h2 hrest σ
      have hmeetsY := hfirst'.meets hdt h1 h2 hrest τ
      rcases le_total τ σ with hle | hle
      · exact ⟨σ, hσ, Or.inl ⟨hfirst.candidate h1 h2 hrest hmeetsY hle htouch.2 hσ u,
          happear⟩⟩
      · exact ⟨τ, hτ, Or.inr ⟨hfirst'.candidate h1 h2 hrest hmeetsX hle htouch.1 hτ u,
          happear'⟩⟩

theorem CandidateX.touchAt (h : CandidateX obj1 obj2 deltaTime t τ) :
    TouchAt obj1 obj2 deltaTime τ := by
  have hstill : obj2.velocity.y = 0 := by rw [hrest.still]
  exact ⟨FirstX.meets hdt h1 h2 hrest h.1 τ, (h.of_still hstill τ).2⟩

theorem CandidateY.touchAt (h : CandidateY obj1 obj2 deltaTime t τ) :
    TouchAt obj1 obj2 deltaTime τ := by
  have hstill : obj2.velocity.x = 0 := by rw [hrest.still]
  exact ⟨(h.of_still hstill τ).2, FirstY.meets hdt h1 h2 hrest h.1 τ⟩

variable (hapart : ¬ Touch obj1 obj2)
include hapart

/-- What is reported is the first touch: any touch has a candidate before it. -/
theorem ReportsX.first (h : ReportsX obj1 obj2 deltaTime t τ) :
    IsLeast {u | (0 < u ∧ u ≤ 1) ∧ TouchAt obj1 obj2 deltaTime u} τ := by
  refine ⟨⟨h.1.1.1.1, h.1.touchAt hdt h1 h2 hrest⟩, ?_⟩
  rintro u ⟨hu, htouch⟩
  obtain ⟨σ, hσ, ⟨hcand, -⟩ | ⟨hcand, -⟩⟩ :=
    touch_candidate hdt h1 h2 hrest hapart ⟨hu.1.le, hu.2⟩ htouch t
  · rwa [IsLeast.unique h.1.1 hcand.1]
  · exact (h.2 σ hcand).trans hσ

theorem ReportsY.first (h : ReportsY obj1 obj2 deltaTime t τ) :
    IsLeast {u | (0 < u ∧ u ≤ 1) ∧ TouchAt obj1 obj2 deltaTime u} τ := by
  refine ⟨⟨h.1.1.1.1, h.1.touchAt hdt h1 h2 hrest⟩, ?_⟩
  rintro u ⟨hu, htouch⟩
  obtain ⟨σ, hσ, ⟨hcand, -⟩ | ⟨hcand, -⟩⟩ :=
    touch_candidate hdt h1 h2 hrest hapart ⟨hu.1.le, hu.2⟩ htouch t
  · exact (h.2 σ hcand).le.trans hσ
  · rwa [IsLeast.unique h.1.1 hcand.1]

/-- A vertical face that is reported is one on which the boxes come together, but for the far
face that is reached together with a horizontal one. -/
theorem ReportsX.apart (h : ReportsX obj1 obj2 deltaTime t τ)
    (hcorner : ¬ LeavesAtCorner obj1 obj2 deltaTime) : ApartX obj1 obj2 deltaTime τ := by
  have htoi := h.1.1.1.1
  obtain ⟨σ, hσ, ⟨hcand, happear⟩ | ⟨hcand, -⟩⟩ := touch_candidate hdt h1 h2 hrest hapart
    ⟨htoi.1.le, htoi.2⟩ (h.1.touchAt hdt h1 h2 hrest) t
  · rwa [IsLeast.unique h.1.1 hcand.1]
  · by_cases h0 : MeetsX obj1 obj2
    · have hsame : σ = τ := le_antisymm hσ (h.2 σ hcand)
      rw [hsame] at hcand
      exact absurd ⟨h0, τ, h.1.1, hcand.1⟩ hcorner
    · exact FirstX.apart hdt h1 h2 hrest h.1.1 h0

theorem ReportsY.apart (h : ReportsY obj1 obj2 deltaTime t τ) :
    ApartY obj1 obj2 deltaTime τ := by
  have htoi := h.1.1.1.1
  obtain ⟨σ, hσ, ⟨hcand, -⟩ | ⟨hcand, happear⟩⟩ := touch_candidate hdt h1 h2 hrest hapart
    ⟨htoi.1.le, htoi.2⟩ (h.1.touchAt hdt h1 h2 hrest) t
  · exact absurd (h.2 σ hcand) hσ.not_gt
  · rwa [IsLeast.unique h.1.1 hcand.1]

theorem finds_first_touch : FindsFirstTouch obj1 obj2 deltaTime := by
  constructor
  · intro c
    have houtcome := aabbCollide_outcome obj1 obj2 hdt c
    generalize aabbCollide obj1 obj2 deltaTime c = r at houtcome
    cases houtcome with
    | vertical τ h =>
      have htouch := (h.first hdt h1 h2 hrest hapart).1
      exact ⟨fun _ => ⟨τ, htouch.1.1.le, htouch.1.2, htouch.2⟩, fun _ => rfl⟩
    | horizontal τ h =>
      have htouch := (h.first hdt h1 h2 hrest hapart).1
      exact ⟨fun _ => ⟨τ, htouch.1.1.le, htouch.1.2, htouch.2⟩, fun _ => rfl⟩
    | none hx hy found =>
      refine ⟨fun hhit => Bool.noConfusion hhit, ?_⟩
      rintro ⟨u, hu0, hu1, htouch⟩
      obtain ⟨σ, -, ⟨hcand, -⟩ | ⟨hcand, -⟩⟩ :=
        touch_candidate hdt h1 h2 hrest hapart ⟨hu0, hu1⟩ htouch c.toi
      · exact absurd hcand (hx σ)
      · exact absurd hcand (hy σ)
  · intro c hhit
    have houtcome := aabbCollide_outcome obj1 obj2 hdt c
    generalize aabbCollide obj1 obj2 deltaTime c = r at houtcome hhit
    cases houtcome with
    | vertical τ h => exact h.first hdt h1 h2 hrest hapart
    | horizontal τ h => exact h.first hdt h1 h2 hrest hapart
    | none hx hy found => cases hhit
  · intro c hhit
    have houtcome := aabbCollide_outcome obj1 obj2 hdt c
    generalize aabbCollide obj1 obj2 deltaTime c = r at houtcome hhit
    cases houtcome with
    | vertical τ h => rfl
    | horizontal τ h => rfl
    | none hx hy found => cases hhit

omit hapart in
/-- Of two faces that are reached together the vertical one is reported. -/
theorem aabbCollide_of_corner (hx : FirstX obj1 obj2 deltaTime τ)
    (hy : FirstY obj1 obj2 deltaTime τ) :
    aabbCollide obj1 obj2 deltaTime .zero = (true, xContact obj1 deltaTime τ) := by
  have hreports : ReportsX obj1 obj2 deltaTime 0 τ :=
    ⟨⟨hx, hy.meets hdt h1 h2 hrest 0⟩, fun σ hσ => (IsLeast.unique hy hσ.1).le⟩
  rw [← answer_eq_some, answer_aabbCollide]
  exact hreports.answer hdt

/-- The test is exact unless the first box leaves past the far vertical face at a corner. -/
theorem exact_test_iff :
    ExactTest obj1 obj2 deltaTime ↔ ¬ LeavesAtCorner obj1 obj2 deltaTime := by
  constructor
  · rintro hexact ⟨h0, τ, hfirst, hfirst'⟩
    have hrun := aabbCollide_of_corner hdt h1 h2 hrest hfirst hfirst'
    have hnormal := hexact.normal .zero (by rw [hrun])
    rw [hrun] at hnormal
    rcases hnormal with ⟨hx, -, -⟩ | ⟨-, -, hy⟩
    · apply hx 0 le_rfl hfirst.1.1.1
      rwa [partWay_zero, partWay_zero]
    · have hzero : (-dirOf obj1.velocity.x : F) = 0 := congrArg Vector.x hy
      exact dirOf_ne_zero _ (neg_eq_zero.mp hzero)
  · intro hcorner
    refine ⟨finds_first_touch hdt h1 h2 hrest hapart, ?_⟩
    intro c hhit
    have hdir (v : F) : (-dirOf v : F) = if v > 0 then -1 else 1 := by
      unfold dirOf
      split_ifs <;> norm_num
    have houtcome := aabbCollide_outcome obj1 obj2 hdt c
    generalize aabbCollide obj1 obj2 deltaTime c = r at houtcome hhit
    cases houtcome with
    | vertical τ h =>
      refine Or.inl ⟨h.apart hdt h1 h2 hrest hapart hcorner, h.1.1.1.2.1, ?_⟩
      rw [← hdir]
      rfl
    | horizontal τ h =>
      refine Or.inr ⟨h.apart hdt h1 h2 hrest hapart, h.1.1.1.2.1, ?_⟩
      rw [← hdir]
      rfl
    | none hx hy found => cases hhit

end Touching

def stillPaddle : GameObj ℚ := ⟨1 / 2, ⟨475, 160⟩, ⟨0, 0⟩, ⟨10, 50⟩⟩

theorem resting_stillPaddle : Resting stillPaddle :=
  ⟨rfl, ⟨470, 480, by decide +kernel, by decide +kernel⟩,
    ⟨135, 185, by decide +kernel, by decide +kernel⟩⟩

def headOnBall : GameObj ℚ := ⟨1 / 20, ⟨464, 160⟩, ⟨1 / 2, 0⟩, ⟨10, 10⟩⟩

theorem exact_test_headOnBall : ExactTest headOnBall stillPaddle 16 := by
  refine (exact_test_iff (by decide) (by decide +kernel) (by decide +kernel) resting_stillPaddle
    (by decide +kernel)).mpr ?_
  rintro ⟨-, τ, -, hfirst⟩
  exact absurd rfl hfirst.1.2.1

/-- A ball below the paddle, and partly behind it. -/
def cornerBall : GameObj ℚ := ⟨1 / 20, ⟨470, 120⟩, ⟨1, 2⟩, ⟨10, 10⟩⟩

/-- The ball comes to the lower face as it comes to the plane of the far vertical one. -/
theorem exact_test_cornerBall :
    ¬ Touch cornerBall stillPaddle ∧
      answer (aabbCollide cornerBall stillPaddle 5 .zero) = some ⟨1, ⟨-1, 0⟩, ⟨475, 130⟩⟩ ∧
      ¬ ApartX cornerBall stillPaddle 5 1 ∧ ¬ ExactTest cornerBall stillPaddle 5 := by
  have hanswer : answer (aabbCollide cornerBall stillPaddle 5 .zero) =
      some ⟨1, ⟨-1, 0⟩, ⟨475, 130⟩⟩ := by decide +kernel
  have hmeets : MeetsX (partWay cornerBall 5 0) (partWay stillPaddle 5 0) := by decide +kernel
  have happear : ¬ ApartX cornerBall stillPaddle 5 1 := fun h => h 0 le_rfl one_pos hmeets
  refine ⟨by decide +kernel, hanswer, happear, fun hexact => ?_⟩
  have hrun := answer_eq_some.mp hanswer
  have hnormal := hexact.normal .zero (by rw [hrun])
  rw [hrun] at hnormal
  rcases hnormal with ⟨hx, -, -⟩ | ⟨-, -, hy⟩
  · exact happear hx
  · exact absurd hy (by decide +kernel)

end CPong
