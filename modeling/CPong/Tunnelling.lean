import CPong.BallContainment
import CPong.Mirror
import CPong.RestingBox
import Mathlib.Order.CompletePartialOrder

/-!
# The ball and the inside of the paddles

Along its way in a tick the ball stays out of a paddle unless it is turned the wrong way: at a
corner that it comes to together with the far side of the paddle.
-/

namespace CPong

set_option autoImplicit false

open Lib (trunc Sweep)
open Lib.Loop (Head)
open Topology

section Faces
variable {F : Type} [Field F]

/-- All four faces at whole numbers. -/
structure WholeFaces (obj : GameObj F) : Prop where
  xFaces : ∃ l r : Int, (aabbGetBoundaries obj).left = l ∧ (aabbGetBoundaries obj).right = r
  yFaces : ∃ d u : Int, (aabbGetBoundaries obj).down = d ∧ (aabbGetBoundaries obj).up = u

/-- The object as it stands when the tick begins. -/
def GameObj.atRest (obj : GameObj F) : GameObj F := { obj with velocity := ⟨0, 0⟩ }

theorem WholeFaces.resting {obj : GameObj F} (h : WholeFaces obj) : Resting obj.atRest :=
  ⟨rfl, h.xFaces, h.yFaces⟩

variable [LinearOrder F]

/-- The box without its faces. -/
def inside (obj : GameObj F) : Set (Vector F) :=
  {p | ((aabbGetBoundaries obj).left < p.x ∧ p.x < (aabbGetBoundaries obj).right) ∧
    (aabbGetBoundaries obj).down < p.y ∧ p.y < (aabbGetBoundaries obj).up}

/-- Both sides of the box are positive. -/
def Solid (obj : GameObj F) : Prop := 0 < obj.size.x ∧ 0 < obj.size.y

theorem Solid.congr {a b : GameObj F} (h : Solid a) (hsize : b.size = a.size) : Solid b := by
  unfold Solid
  rwa [hsize]

theorem Solid.sized {obj : GameObj F} (h : Solid obj) : Sized obj := ⟨h.1.le, h.2.le⟩

theorem inside_congr {a b : GameObj F} (hpos : a.pos = b.pos) (hsize : a.size = b.size) :
    inside a = inside b := by
  unfold inside aabbGetBoundaries
  rw [hpos, hsize]

theorem touch_of_mem_inside {a b : GameObj F} {p : Vector F} (ha : p ∈ inside a)
    (hb : p ∈ inside b) : Touch a b := by
  obtain ⟨⟨hal, har⟩, had, hau⟩ := ha
  obtain ⟨⟨hbl, hbr⟩, hbd, hbu⟩ := hb
  unfold Touch MeetsX MeetsY
  simp only [not_or, not_lt, gt_iff_lt]
  exact ⟨⟨(hbl.trans har).le, (hal.trans hbr).le⟩, (hbd.trans hau).le, (had.trans hbu).le⟩

variable [IsStrictOrderedRing F]

theorem Solid.of_mem_inside {obj : GameObj F} {p : Vector F} (h : p ∈ inside obj) : Solid obj := by
  obtain ⟨⟨hl, hr⟩, hd, hu⟩ := h
  unfold aabbGetBoundaries at hl hr hd hu
  dsimp only at hl hr hd hu
  constructor <;> linarith

variable [FloorRing F]

omit [IsStrictOrderedRing F] in
/-- With `{0}` as `*coll_info` the test takes the second box as it stands when the tick begins. -/
theorem aabbCollide_atRest (obj1 obj2 : GameObj F) (deltaTime : Int) :
    aabbCollide obj1 obj2.atRest deltaTime .zero = aabbCollide obj1 obj2 deltaTime .zero := by
  have hstart (obj : GameObj F) : partWay obj deltaTime (CollInfo.zero : CollInfo F).toi = obj :=
    partWay_zero obj deltaTime
  have hx : XHit obj1 obj2.atRest deltaTime (CollInfo.zero : CollInfo F).toi ↔
      XHit obj1 obj2 deltaTime (CollInfo.zero : CollInfo F).toi := by
    unfold XHit
    rw [hstart, hstart]
    exact Iff.rfl
  have hy : YHit obj1 obj2.atRest deltaTime (CollInfo.zero : CollInfo F).toi ↔
      YHit obj1 obj2 deltaTime (CollInfo.zero : CollInfo F).toi := by
    unfold YHit
    rw [hstart, hstart]
    exact Iff.rfl
  rw [aabbCollide_eq, aabbCollide_eq]
  simp only [hx, hy]
  rfl

theorem aabbCollide_valid (obj1 obj2 : GameObj F) (deltaTime : Int) (c : CollInfo F) :
    isValidToi (aabbCollide obj1 obj2 deltaTime c).2.toi =
      (aabbCollide obj1 obj2 deltaTime c).1 := by
  rw [aabbCollide_eq]
  split
  · rename_i hboth
    have hvx : isValidToi (xFaceHit obj1 obj2 deltaTime).2.toi = true :=
      (getFirstCollision_hit hboth.1.1).2.1
    have hvy : isValidToi (yFaceHit obj1 obj2 deltaTime).2.toi = true :=
      (getFirstCollision_hit hboth.2.1).2.1
    rw [getFirstCollision_pair hvx hvy]
    dsimp only
    split
    · exact hvx
    · exact hvy
  · split
    · rename_i hhit
      exact (getFirstCollision_hit hhit.1).2.1
    · split
      · rename_i hhit
        exact (getFirstCollision_hit hhit.1).2.1
      · rw [Bool.eq_false_iff]
        intro hvalid
        exact absurd (isValidToi_iff.mp hvalid).1 (by norm_num)

end Faces

section Sides
variable {F : Type} [Field F] [LinearOrder F] (ball obj : GameObj F)

/-- The ball goes away from the vertical face that it is at. -/
def LeavesX : Prop :=
  ball.velocity.x < 0 ∧ (aabbGetBoundaries ball).right = (aabbGetBoundaries obj).left ∨
    0 < ball.velocity.x ∧ (aabbGetBoundaries ball).left = (aabbGetBoundaries obj).right

def LeavesY : Prop :=
  ball.velocity.y < 0 ∧ (aabbGetBoundaries ball).up = (aabbGetBoundaries obj).down ∨
    0 < ball.velocity.y ∧ (aabbGetBoundaries ball).down = (aabbGetBoundaries obj).up

/-- The ball does not touch the box, or it is leaving it. -/
def Clear : Prop := ¬ Touch ball obj ∨ LeavesX ball obj ∨ LeavesY ball obj

variable [IsStrictOrderedRing F] {ball obj} (h1 : Sized ball) (h2 : Sized obj) {deltaTime : Int}

theorem way_neg_iff (hdt : 0 < deltaTime) (v : F) :
    v * deltaTime < 0 ↔ v < 0 := by
  have ht : (0 : F) < deltaTime := by exact_mod_cast hdt
  rw [← neg_pos, ← neg_mul, mul_pos_iff_of_pos_right ht, neg_pos]

theorem leavesX_iff (hdt : 0 < deltaTime) :
    (xSweep h1 h2 deltaTime).Leaves ↔ LeavesX ball obj := by
  have ht : (0 : F) < deltaTime := by exact_mod_cast hdt
  unfold Sweep.Leaves LeavesX
  simp only [xSweep, mul_pos_iff_of_pos_right ht, way_neg_iff hdt, aabbGetBoundaries]

theorem leavesY_iff (hdt : 0 < deltaTime) :
    (ySweep h1 h2 deltaTime).Leaves ↔ LeavesY ball obj := by
  have ht : (0 : F) < deltaTime := by exact_mod_cast hdt
  unfold Sweep.Leaves LeavesY
  simp only [ySweep, mul_pos_iff_of_pos_right ht, way_neg_iff hdt, aabbGetBoundaries]

variable {t τ k : F} {next : GameObj F}

omit [IsStrictOrderedRing F] in
theorem touch_congr (hpos : next.pos = ball.pos) (hsize : next.size = ball.size) :
    Touch next obj ↔ Touch ball obj := by
  unfold Touch
  rw [meetsX_iff, meetsY_iff, meetsX_iff, meetsY_iff, hpos, hsize]

theorem xSweep_resume (h1' : Sized next) (hpos : next.pos = (partWay ball deltaTime τ).pos)
    (hsize : next.size = ball.size) (hvel : next.velocity.x = k * ball.velocity.x) :
    xSweep h1' h2 deltaTime = (xSweep h1 h2 deltaTime).resume τ k := by
  have hplace : (xSweep h1 h2 deltaTime).position τ = (partWay ball deltaTime τ).pos.x :=
    xSweep_position h1 h2
  simp only [xSweep, Sweep.resume, hpos, hsize, hvel, mul_assoc] at hplace ⊢
  rw [hplace]

theorem ySweep_resume (h1' : Sized next) (hpos : next.pos = (partWay ball deltaTime τ).pos)
    (hsize : next.size = ball.size) (hvel : next.velocity.y = k * ball.velocity.y) :
    ySweep h1' h2 deltaTime = (ySweep h1 h2 deltaTime).resume τ k := by
  have hplace : (ySweep h1 h2 deltaTime).position τ = (partWay ball deltaTime τ).pos.y :=
    ySweep_position h1 h2
  simp only [ySweep, Sweep.resume, hpos, hsize, hvel, mul_assoc] at hplace ⊢
  rw [hplace]

theorem touchAt_iff (hrest : Resting obj) : TouchAt ball obj deltaTime t ↔
    (xSweep h1 h2 deltaTime).Meets t ∧ (ySweep h1 h2 deltaTime).Meets t :=
  and_congr (xSweep_meets h1 h2 hrest.still).symm (ySweep_meets h1 h2 hrest.still).symm

omit [IsStrictOrderedRing F] in
theorem touchAt_zero : TouchAt ball obj deltaTime 0 ↔ Touch ball obj := by
  unfold TouchAt
  rw [partWay_zero, partWay_zero]

omit [IsStrictOrderedRing F] in
theorem touchAt_iff_touch (hrest : Resting obj) :
    TouchAt ball obj deltaTime t ↔ Touch (partWay ball deltaTime t) obj := by
  unfold TouchAt
  rw [partWay_of_still t hrest.still]

/-- The insides of solid boxes have a point in common exactly if the boxes cross on both axes. -/
theorem disjoint_inside_iff (hball : Solid ball) (hobj : Solid obj) :
    Disjoint (inside (partWay ball deltaTime t)) (inside obj) ↔
      ¬ ((xSweep h1 h2 deltaTime).Crosses t ∧ (ySweep h1 h2 deltaTime).Crosses t) := by
  obtain ⟨hwb, hhb⟩ := hball
  obtain ⟨hwo, hho⟩ := hobj
  unfold Sweep.Crosses
  rw [xSweep_position, ySweep_position, Set.disjoint_left]
  simp only [inside, aabbGetBoundaries, Set.mem_ofPred_eq, partWay_size, xSweep, ySweep]
  generalize (partWay ball deltaTime t).pos = pos
  constructor
  · rintro hdisjoint ⟨⟨hxl, hxr⟩, hyl, hyr⟩
    obtain ⟨x, hxlo, hxhi⟩ : ∃ x, max (pos.x - ball.size.x / 2) (obj.pos.x - obj.size.x / 2) < x ∧
        x < min (pos.x + ball.size.x / 2) (obj.pos.x + obj.size.x / 2) := by
      apply exists_between
      rw [max_lt_iff, lt_min_iff, lt_min_iff]
      constructor <;> constructor <;> linarith
    obtain ⟨y, hylo, hyhi⟩ : ∃ y, max (pos.y - ball.size.y / 2) (obj.pos.y - obj.size.y / 2) < y ∧
        y < min (pos.y + ball.size.y / 2) (obj.pos.y + obj.size.y / 2) := by
      apply exists_between
      rw [max_lt_iff, lt_min_iff, lt_min_iff]
      constructor <;> constructor <;> linarith
    rw [max_lt_iff] at hxlo hylo
    rw [lt_min_iff] at hxhi hyhi
    exact hdisjoint (a := ⟨x, y⟩) ⟨⟨hxlo.1, hxhi.1⟩, hylo.1, hyhi.1⟩
      ⟨⟨hxlo.2, hxhi.2⟩, hylo.2, hyhi.2⟩
  · rintro hapart p ⟨⟨hbl, hbr⟩, hbd, hbu⟩ ⟨⟨hol, hor⟩, hod, hou⟩
    exact hapart ⟨⟨hol.trans hbr, hbl.trans hor⟩, hod.trans hbu, hbd.trans hou⟩

end Sides

section Turn
variable {ball obj : GameObj ℝ} {c : CollInfo ℝ}

theorem sized_bounce (h1 : Sized ball) :
    Sized (ballBounceOnCollision { ball with pos := c.pos } c.normal) := by
  unfold Sized
  rw [ballBounceOnCollision_size]
  exact h1

/-- The bounce on a vertical face turns the ball back along its axis. -/
theorem bounce_velocity_x (hnormal : c.normal = ⟨-dirOf ball.velocity.x, 0⟩) :
    ∃ k : ℝ, 0 < k ∧ (ballBounceOnCollision { ball with pos := c.pos } c.normal).velocity =
      ⟨-k * ball.velocity.x, k * ball.velocity.y⟩ := by
  obtain ⟨k, hk, hvel, -⟩ := ballBounceOnCollision_velocity { ball with pos := c.pos } c.normal
  refine ⟨k, one_pos.trans_le hk, ?_⟩
  rw [hvel, hnormal, reflectOrthogonal, if_neg (neg_ne_zero.mpr (dirOf_ne_zero _))]
  simp

theorem bounce_velocity_y (hnormal : c.normal = ⟨0, -dirOf ball.velocity.y⟩) :
    ∃ k : ℝ, 0 < k ∧ (ballBounceOnCollision { ball with pos := c.pos } c.normal).velocity =
      ⟨k * ball.velocity.x, -k * ball.velocity.y⟩ := by
  obtain ⟨k, hk, hvel, -⟩ := ballBounceOnCollision_velocity { ball with pos := c.pos } c.normal
  refine ⟨k, one_pos.trans_le hk, ?_⟩
  rw [hvel, hnormal, reflectOrthogonal, if_pos rfl]
  simp

end Turn

section Test
variable {ball obj : GameObj ℝ} {deltaTime : Int} {t T τ k : ℝ} {c : CollInfo ℝ}
  (hdt : 0 < deltaTime) (h1 : Sized ball) (h2 : Sized obj) (hrest : Resting obj)
include hdt h1 h2 hrest

/-- A ball that goes away from a face touches the box no more. -/
theorem not_touchAt_of_leaves (h : LeavesX ball obj ∨ LeavesY ball obj) (ht : 0 < t) :
    ¬ TouchAt ball obj deltaTime t := by
  rw [touchAt_iff h1 h2 hrest]
  rintro ⟨hx, hy⟩
  rcases h with h | h
  · exact ((leavesX_iff h1 h2 hdt).mpr h).not_meets ht hx
  · exact ((leavesY_iff h1 h2 hdt).mpr h).not_meets ht hy

/-- Up to the collision that the test reports, if it reports one, the ball stays outside. -/
theorem Clear.not_crosses (h : Clear ball obj) (hT : T ≤ 1)
    (hfirst : (aabbCollide ball obj deltaTime .zero).1 = true →
      T ≤ (aabbCollide ball obj deltaTime .zero).2.toi) (ht : 0 ≤ t) (htT : t ≤ T) :
    ¬ ((xSweep h1 h2 deltaTime).Crosses t ∧ (ySweep h1 h2 deltaTime).Crosses t) := by
  rintro ⟨hx, hy⟩
  rcases h with hapart | hleaves | hleaves
  · have hfinds := finds_first_touch hdt h1 h2 hrest hapart
    have h0 : ¬ TouchAt ball obj deltaTime 0 := fun h0 => hapart (touchAt_zero.mp h0)
    rw [touchAt_iff h1 h2 hrest] at h0
    rcases ht.eq_or_lt with rfl | hpos
    · exact h0 ⟨hx.meets, hy.meets⟩
    · obtain ⟨u, hu0, hut, hux, huy⟩ := Sweep.exists_meets_before hx hy hpos
      have htouch : TouchAt ball obj deltaTime u := (touchAt_iff h1 h2 hrest).mpr ⟨hux, huy⟩
      have hu1 : u ≤ 1 := (hut.le.trans htT).trans hT
      have hhit := (hfinds.verdict .zero).mpr ⟨u, hu0, hu1, htouch⟩
      have hu : 0 < u := by
        apply hu0.lt_of_ne
        rintro rfl
        exact h0 ⟨hux, huy⟩
      have hle := (hfinds.first .zero hhit).2 ⟨⟨hu, hu1⟩, htouch⟩
      have hlate := hfirst hhit
      linarith
  · exact ((leavesX_iff h1 h2 hdt).mpr hleaves).not_crosses ht hx
  · exact ((leavesY_iff h1 h2 hdt).mpr hleaves).not_crosses ht hy

/-- Turned back at the first face on its way, the ball leaves the box. -/
theorem leavesX_of_bounce (h0 : ¬ MeetsX ball obj) (hfirst : FirstX ball obj deltaTime c.toi)
    (hpos : c.pos = (partWay ball deltaTime c.toi).pos)
    (hnormal : c.normal = ⟨-dirOf ball.velocity.x, 0⟩) :
    LeavesX (ballBounceOnCollision { ball with pos := c.pos } c.normal) obj := by
  obtain ⟨k, hk, hvel⟩ := bounce_velocity_x hnormal
  rw [firstX_iff hdt h1 h2 hrest] at hfirst
  rw [← leavesX_iff (sized_bounce h1) h2 hdt, xSweep_resume h1 h2 (sized_bounce h1)
    ((ballBounceOnCollision_pos _ _).trans hpos) (ballBounceOnCollision_size _ _)
    (congrArg Vector.x hvel)]
  exact Sweep.leaves_of_turn (neg_neg_of_pos hk) hfirst.1.2.1
    (Sweep.lead_of_first (not_meetsX_zero h1 h2 hrest.still h0) hfirst)

theorem leavesY_of_bounce (h0 : ¬ MeetsY ball obj) (hfirst : FirstY ball obj deltaTime c.toi)
    (hpos : c.pos = (partWay ball deltaTime c.toi).pos)
    (hnormal : c.normal = ⟨0, -dirOf ball.velocity.y⟩) :
    LeavesY (ballBounceOnCollision { ball with pos := c.pos } c.normal) obj := by
  obtain ⟨k, hk, hvel⟩ := bounce_velocity_y hnormal
  rw [firstY_iff hdt h1 h2 hrest] at hfirst
  rw [← leavesY_iff (sized_bounce h1) h2 hdt, ySweep_resume h1 h2 (sized_bounce h1)
    ((ballBounceOnCollision_pos _ _).trans hpos) (ballBounceOnCollision_size _ _)
    (congrArg Vector.y hvel)]
  exact Sweep.leaves_of_turn (neg_neg_of_pos hk) hfirst.1.2.1
    (Sweep.lead_of_first (not_meetsY_zero h1 h2 hrest.still h0) hfirst)

/-- After the bounce the ball is still clear of the box, but for a bounce on the far vertical face
at the moment at which it comes to a horizontal one. -/
theorem Clear.bounce (h : Clear ball obj) (hpos : c.pos = (partWay ball deltaTime c.toi).pos)
    (htoi : 0 < c.toi ∧ c.toi ≤ 1)
    (hfirst : (aabbCollide ball obj deltaTime .zero).1 = true →
      c.toi ≤ (aabbCollide ball obj deltaTime .zero).2.toi)
    (hsame : (aabbCollide ball obj deltaTime .zero).1 = true →
      (aabbCollide ball obj deltaTime .zero).2.toi = c.toi →
      (aabbCollide ball obj deltaTime .zero).2 = c)
    (hcorner : ¬ (MeetsX ball obj ∧ FirstX ball obj deltaTime c.toi ∧
      FirstY ball obj deltaTime c.toi)) :
    Clear (ballBounceOnCollision { ball with pos := c.pos } c.normal) obj := by
  have hstart (obj : GameObj ℝ) : partWay obj deltaTime 0 = obj := partWay_zero obj deltaTime
  by_cases htouch : TouchAt ball obj deltaTime c.toi
  · have hapart : ¬ Touch ball obj := by
      refine h.resolve_right fun hleaves => ?_
      exact not_touchAt_of_leaves hdt h1 h2 hrest hleaves htoi.1 htouch
    have hfinds := finds_first_touch hdt h1 h2 hrest hapart
    have hhit := (hfinds.verdict .zero).mpr ⟨c.toi, htoi.1.le, htoi.2, htouch⟩
    have hle := (hfinds.first .zero hhit).2 ⟨htoi, htouch⟩
    have hc := hsame hhit (le_antisymm hle (hfirst hhit))
    have houtcome := aabbCollide_outcome ball obj hdt .zero
    right
    generalize aabbCollide ball obj deltaTime .zero = r at houtcome hc hhit
    cases houtcome with
    | vertical τ hreports =>
      obtain rfl : xContact ball deltaTime τ = c := hc
      left
      apply leavesX_of_bounce hdt h1 h2 hrest ?_ hreports.1.1 rfl rfl
      have happear := hreports.apart hdt h1 h2 hrest hapart ?_ 0 le_rfl htoi.1
      · rwa [hstart, hstart] at happear
      · rintro ⟨hmeets, σ, hσ, hσ'⟩
        rw [IsLeast.unique hσ hreports.1.1] at hσ'
        exact hcorner ⟨hmeets, hreports.1.1, hσ'⟩
    | horizontal τ hreports =>
      obtain rfl : yContact ball deltaTime τ = c := hc
      right
      apply leavesY_of_bounce hdt h1 h2 hrest ?_ hreports.1.1 rfl rfl
      have happear := hreports.apart hdt h1 h2 hrest hapart 0 le_rfl htoi.1
      rwa [hstart, hstart] at happear
    | none hx hy found => cases hhit
  · left
    have hplace : (ballBounceOnCollision { ball with pos := c.pos } c.normal).pos =
        (partWay ball deltaTime c.toi).pos := (ballBounceOnCollision_pos _ _).trans hpos
    rw [touch_congr hplace (ballBounceOnCollision_size _ _), ← touchAt_iff_touch hrest]
    exact htouch

/-- Turned back from the far face at a corner, the ball goes into the box. -/
theorem crosses_of_corner (hball : Solid ball) (hmeets : MeetsX ball obj)
    (hx : FirstX ball obj deltaTime c.toi) (hy : FirstY ball obj deltaTime c.toi)
    (hpos : c.pos = (partWay ball deltaTime c.toi).pos)
    (hnormal : c.normal = ⟨-dirOf ball.velocity.x, 0⟩)
    (houtside : ¬ ((xSweep h1 h2 deltaTime).Crosses c.toi ∧
      (ySweep h1 h2 deltaTime).Crosses c.toi)) :
    ∀ᶠ u in 𝓝[>] 0, (xSweep (sized_bounce (c := c) h1) h2 deltaTime).Crosses u ∧
      (ySweep (sized_bounce (c := c) h1) h2 deltaTime).Crosses u := by
  obtain ⟨k, hk, hvel⟩ := bounce_velocity_x hnormal
  have hplace : (ballBounceOnCollision { ball with pos := c.pos } c.normal).pos =
      (partWay ball deltaTime c.toi).pos := (ballBounceOnCollision_pos _ _).trans hpos
  rw [xSweep_resume h1 h2 (sized_bounce h1) hplace (ballBounceOnCollision_size _ _)
    (congrArg Vector.x hvel), ySweep_resume h1 h2 (sized_bounce h1) hplace
    (ballBounceOnCollision_size _ _) (congrArg Vector.y hvel)]
  rw [firstX_iff hdt h1 h2 hrest] at hx
  rw [firstY_iff hdt h1 h2 hrest] at hy
  have htoi := hx.1.1.1
  have hcross : (xSweep h1 h2 deltaTime).Crosses c.toi := by
    apply Sweep.crosses_of_meets (half_pos hball.1) ?_ hx.1 htoi le_rfl
    rwa [xSweep_meets h1 h2 hrest.still (u := 0), partWay_zero, partWay_zero]
  have hbefore : ¬ (ySweep h1 h2 deltaTime).Meets 0 := fun h0 =>
    houtside ⟨hcross, Sweep.crosses_of_meets (half_pos hball.2) h0 hy.1 htoi le_rfl⟩
  have hlead : ((ySweep h1 h2 deltaTime).resume c.toi k).lead 0 =
      ((ySweep h1 h2 deltaTime).resume c.toi k).near := by
    rw [Sweep.resume_lead_zero hk, Sweep.resume_near hk, Sweep.lead_of_first hbefore hy]
  exact (Sweep.resume_crosses_zero.mpr hcross).soon.and
    (Sweep.crosses_soon (half_pos hball.2) (mul_ne_zero hk.ne' hy.1.2.1) hlead)

end Test

section Way
variable {F : Type} [Field F] [LinearOrder F] [FloorRing F] (wall : Wall)
  (paddle1 paddle2 : GameObj F) (deltaTime : Int) (s : AdvanceState F)

/-- Where one trip takes the ball: to the collision that is found, or as far as the time goes. -/
def tripEnd : Vector F :=
  let first := (collide wall paddle1 paddle2 deltaTime s).first
  if first.1 then first.2.pos
  else (linearMove s.ball (trunc (deltaTime - s.passedTime))).pos

/-- The ball after the part `r` of the way of one trip. -/
def onWay (r : F) : GameObj F :=
  { s.ball with
    pos := linearInterpolate s.ball.pos (tripEnd wall paddle1 paddle2 deltaTime s) r }

/-- There is a trip, and it takes the ball somewhere. -/
def GoesOn : Prop :=
  s.passedTime < deltaTime ∧ ((collide wall paddle1 paddle2 deltaTime s).first.1 = true ∨
    trunc (deltaTime - s.passedTime) ≠ 0)

/-- The ball has an `x` in common with a solid paddle, and it comes to a vertical face, which is
then the far one, and to a horizontal face at the moment of the collision that is found. -/
def TurnsInside (paddle : GameObj F) : Prop :=
  Solid paddle ∧ MeetsX s.ball paddle ∧
    FirstX s.ball paddle deltaTime (collide wall paddle1 paddle2 deltaTime s).first.2.toi ∧
    FirstY s.ball paddle deltaTime (collide wall paddle1 paddle2 deltaTime s).first.2.toi

/-- Wherever the ball is in the tick, its inside has no point in common with that of a paddle as
it stands when the tick begins. -/
def StaysOutside [Libm F] (ball : GameObj F) : Prop :=
  ∀ s, Head (advanceBody wall paddle1 paddle2 deltaTime) (advanceStart ball) s →
    s.passedTime < deltaTime → ∀ r, 0 ≤ r → r ≤ 1 → ∀ paddle ∈ [paddle1, paddle2],
      Disjoint (inside (onWay wall paddle1 paddle2 deltaTime s r)) (inside paddle)

variable {wall paddle1 paddle2 deltaTime s} {T : F} {paddle : GameObj F} {c : CollInfo F}

theorem onWay_eq (h : tripEnd wall paddle1 paddle2 deltaTime s = (partWay s.ball deltaTime T).pos)
    (r : F) : onWay wall paddle1 paddle2 deltaTime s r = partWay s.ball deltaTime (r * T) := by
  have hplace : (onWay wall paddle1 paddle2 deltaTime s r).pos =
      (partWay s.ball deltaTime (r * T)).pos := by
    unfold onWay
    rw [h, partWay_pos, partWay_pos]
    simp only [linearInterpolate]
    congr 1 <;> ring
  exact GameObj.ext rfl hplace rfl rfl

theorem tripEnd_of_first (hfirst : (collide wall paddle1 paddle2 deltaTime s).first = (true, c)) :
    tripEnd wall paddle1 paddle2 deltaTime s = c.pos := by
  unfold tripEnd
  rw [hfirst]
  rfl

theorem tripEnd_of_none (hnone : (collide wall paddle1 paddle2 deltaTime s).first.1 = false) :
    tripEnd wall paddle1 paddle2 deltaTime s =
      (linearMove s.ball (trunc (deltaTime - s.passedTime))).pos := by
  unfold tripEnd
  apply if_neg
  rw [hnone]
  exact Bool.false_ne_true

variable [IsStrictOrderedRing F]

omit [FloorRing F] [IsStrictOrderedRing F] in
/-- A trip that is not the last one takes the ball the part `c.toi` of the whole tick on. -/
theorem bounce_pos {xs ys : List Int} (hhit : Hit s.ball deltaTime xs ys c) :
    c.pos = (partWay s.ball deltaTime c.toi).pos :=
  hhit.pos.trans (partWay_pos s.ball deltaTime c.toi).symm

/-- What a paddle reports is no earlier than the collision that is found. -/
theorem first_le_paddle (wall : Wall) (hpaddle : paddle ∈ [paddle1, paddle2])
    (hhit : (aabbCollide s.ball paddle deltaTime .zero).1 = true) :
    (collide wall paddle1 paddle2 deltaTime s).first.1 = true ∧
      (collide wall paddle1 paddle2 deltaTime s).first.2.toi ≤
        (aabbCollide s.ball paddle deltaTime .zero).2.toi := by
  rw [← aabbCollide_valid] at hhit
  apply getFirstCollision_le ?_ hhit
  rcases List.mem_pair.mp hpaddle with rfl | rfl
  · exact List.mem_cons_self
  · exact List.mem_cons_of_mem _ List.mem_cons_self

/-- A paddle that reports a collision at the time of the one that is found reports that one. -/
theorem first_eq_paddle (hfaces₁ : WholeFaces paddle1) (hfaces₂ : WholeFaces paddle2)
    (hsize : 0 ≤ s.ball.size.x)
    (hgap : Beside s.ball.size.x paddle1 paddle2 ∨ Beside s.ball.size.x paddle2 paddle1)
    (hpaddle : paddle ∈ [paddle1, paddle2])
    (hhit : (aabbCollide s.ball paddle deltaTime .zero).1 = true)
    (htoi : (aabbCollide s.ball paddle deltaTime .zero).2.toi =
      (collide wall paddle1 paddle2 deltaTime s).first.2.toi) :
    (aabbCollide s.ball paddle deltaTime .zero).2 =
      (collide wall paddle1 paddle2 deltaTime s).first.2 := by
  have hvalid := (aabbCollide_valid s.ball paddle deltaTime .zero).trans hhit
  have hfound := (first_le_paddle wall hpaddle hhit).1
  have hmin := (getFirstCollision_hit hfound).2.2
  rw [← Collisions.first, ← htoi] at hmin
  have hkept (d : CollInfo F) (cs : List (CollInfo F))
      (hfirst : (collide wall paddle1 paddle2 deltaTime s).first = getFirstCollision (d :: cs) .zero)
      (hd : d = (aabbCollide s.ball paddle deltaTime .zero).2)
      (hcs : ∀ e ∈ cs, isValidToi e.toi = true → d.toi ≤ e.toi) :
      (aabbCollide s.ball paddle deltaTime .zero).2 =
        (collide wall paddle1 paddle2 deltaTime s).first.2 := by
    rw [hfirst, getFirstCollision_head (hd ▸ hvalid) hcs, hd]
  rcases List.mem_pair.mp hpaddle with rfl | rfl
  · refine hkept _ _ rfl rfl fun e he => hmin e (List.mem_cons_of_mem _ he)
  · refine hkept _ _ (getFirstCollision_swap _ ?_) rfl fun e he => hmin e ?_
    · intro hv₁ hv₂ heq
      exact absurd heq (aabbCollide_apart hsize hfaces₁.xFaces hfaces₂.xFaces hgap hv₁ hv₂)
    · rcases List.mem_cons.mp he with rfl | he
      · exact List.mem_cons_self
      · exact List.mem_cons_of_mem _ (List.mem_cons_of_mem _ he)

/-- What is left of the tick, as a part of it. -/
theorem exists_restPart (h0 : 0 ≤ s.passedTime) (htime : s.passedTime < deltaTime) :
    ∃ ρ : F, (0 ≤ ρ ∧ ρ ≤ 1) ∧ ρ * deltaTime = (trunc (deltaTime - s.passedTime) : Int) := by
  have hdt : (0 : F) < deltaTime := h0.trans_lt htime
  have hleft : 0 ≤ (deltaTime : F) - s.passedTime := by linarith
  have hrest : (0 : F) ≤ (trunc (deltaTime - s.passedTime) : Int) := by
    exact_mod_cast Lib.trunc_nonneg hleft
  have hle := Lib.trunc_le hleft
  refine ⟨((trunc (deltaTime - s.passedTime) : Int) : F) / deltaTime, ⟨div_nonneg hrest hdt.le, ?_⟩,
    div_mul_cancel₀ _ hdt.ne'⟩
  rw [div_le_one hdt]
  linarith

/-- The part of the tick for which one trip takes the ball on. -/
theorem exists_tripEnd (wall : Wall) (paddle1 paddle2 : GameObj F) (h0 : 0 ≤ s.passedTime)
    (htime : s.passedTime < deltaTime) :
    ∃ T, (0 ≤ T ∧ T ≤ 1) ∧
      tripEnd wall paddle1 paddle2 deltaTime s = (partWay s.ball deltaTime T).pos ∧
      ((collide wall paddle1 paddle2 deltaTime s).first.1 = true →
        T ≤ (collide wall paddle1 paddle2 deltaTime s).first.2.toi) ∧
      (GoesOn wall paddle1 paddle2 deltaTime s ↔ 0 < T) := by
  obtain ⟨ρ, hρ, hrest⟩ := exists_restPart h0 htime
  have hdt : (deltaTime : F) ≠ 0 := (h0.trans_lt htime).ne'
  have hmoves : trunc (deltaTime - s.passedTime) ≠ 0 ↔ 0 < ρ := by
    rw [hρ.1.lt_iff_ne', ← Int.cast_ne_zero (α := F), ← hrest, mul_ne_zero_iff, and_iff_left hdt]
  cases hfound : (collide wall paddle1 paddle2 deltaTime s).first.1 with
  | false =>
    refine ⟨ρ, hρ, ?_, fun h => Bool.noConfusion h, ?_⟩
    · rw [tripEnd_of_none hfound, partWay_pos, hrest]
      rfl
    · rw [GoesOn, hfound, ← hmoves]
      simp [htime]
  | true =>
    obtain ⟨hmem, hvalid⟩ := Collisions.first_hit hfound
    have hend : tripEnd wall paddle1 paddle2 deltaTime s =
        (collide wall paddle1 paddle2 deltaTime s).first.2.pos :=
      tripEnd_of_first (Prod.ext hfound rfl)
    have hon : GoesOn wall paddle1 paddle2 deltaTime s := ⟨htime, Or.inl hfound⟩
    rw [hend]
    simp only [hon, true_iff, true_implies]
    generalize (collide wall paddle1 paddle2 deltaTime s).first.2 = first at hmem hvalid ⊢
    have htoi := isValidToi_iff.mp hvalid
    have hwhole {xs ys : List Int} (hhit : Hit s.ball deltaTime xs ys first) :
        ∃ T, (0 ≤ T ∧ T ≤ 1) ∧ first.pos = (partWay s.ball deltaTime T).pos ∧
          T ≤ first.toi ∧ 0 < T :=
      ⟨first.toi, ⟨htoi.1.le, htoi.2⟩, bounce_pos hhit, le_rfl, htoi.1⟩
    rcases hmem with rfl | rfl | rfl | rfl
    · exact hwhole (aabbCollide_hit hvalid)
    · exact hwhole (aabbCollide_hit hvalid)
    · exact hwhole (ballWallCollide_hit hvalid)
    · -- The goals are tested over what is left of the tick.
      have hhit := ballScoreCollide_hit hvalid
      have hpos : 0 < ρ := hmoves.mp hhit.time
      have hle := mul_le_of_le_one_right htoi.1.le hρ.2
      refine ⟨_, ⟨mul_nonneg htoi.1.le hρ.1, hle.trans htoi.2⟩, ?_, hle, mul_pos htoi.1 hpos⟩
      rw [partWay_pos, mul_assoc _ ρ, hrest]
      exact hhit.pos

end Way

section Tick
variable {wall : Wall} {paddle1 paddle2 paddle ball : GameObj ℝ} {deltaTime : Int}
  {s t : AdvanceState ℝ} {T r : ℝ} {c : CollInfo ℝ}

/-- The paddles of the game: all faces at whole numbers, and no room for the ball at both. -/
structure Paddles (ball paddle1 paddle2 : GameObj ℝ) : Prop where
  faces1 : WholeFaces paddle1
  faces2 : WholeFaces paddle2
  gap : Beside ball.size.x paddle1 paddle2 ∨ Beside ball.size.x paddle2 paddle1

theorem Paddles.faces (h : Paddles ball paddle1 paddle2) (hpaddle : paddle ∈ [paddle1, paddle2]) :
    WholeFaces paddle := by
  rcases List.mem_pair.mp hpaddle with rfl | rfl
  · exact h.faces1
  · exact h.faces2

/-- At the head of a trip the ball is outside of every solid paddle; it is clear of them if it
goes on. -/
structure KeptOut (wall : Wall) (paddle1 paddle2 : GameObj ℝ) (deltaTime : Int) (ball : GameObj ℝ)
    (s : AdvanceState ℝ) : Prop where
  size : s.ball.size = ball.size
  time : 0 ≤ s.passedTime
  outside : ∀ paddle ∈ [paddle1, paddle2], Solid paddle → Disjoint (inside s.ball) (inside paddle)
  clear : GoesOn wall paddle1 paddle2 deltaTime s → ∀ paddle ∈ [paddle1, paddle2],
    Solid paddle → Clear s.ball paddle

theorem disjoint_of_solid {a b : GameObj ℝ} (h : Solid b → Disjoint (inside a) (inside b)) :
    Disjoint (inside a) (inside b) := by
  rw [Set.disjoint_left]
  intro p ha hb
  exact Set.disjoint_left.mp (h (Solid.of_mem_inside hb)) ha hb

/-- A ball that is clear of a paddle stays outside up to the collision that is found. -/
theorem Clear.disjoint (h : Clear s.ball paddle) (hdt : 0 < deltaTime) (hball : Solid s.ball)
    (hfaces : WholeFaces paddle) (hsolid : Solid paddle) (hpaddle : paddle ∈ [paddle1, paddle2])
    (hT : T ≤ 1) (hfirst : (collide wall paddle1 paddle2 deltaTime s).first.1 = true →
      T ≤ (collide wall paddle1 paddle2 deltaTime s).first.2.toi) (h0 : 0 ≤ r) (hr : r ≤ T) :
    Disjoint (inside (partWay s.ball deltaTime r)) (inside paddle) := by
  have hrest := hfaces.resting
  have hobj : Solid paddle.atRest := hsolid
  change Disjoint _ (inside paddle.atRest)
  rw [disjoint_inside_iff hball.sized hobj.sized hball hobj]
  refine Clear.not_crosses hdt hball.sized hobj.sized hrest h hT ?_ h0 hr
  rw [aabbCollide_atRest]
  intro hhit
  obtain ⟨hfound, hle⟩ := first_le_paddle wall hpaddle hhit
  exact (hfirst hfound).trans hle

/-- One trip keeps the ball outside. -/
theorem KeptOut.onWay_disjoint (h : KeptOut wall paddle1 paddle2 deltaTime ball s)
    (hpaddles : Paddles ball paddle1 paddle2) (hball : Solid ball)
    (htime : s.passedTime < deltaTime) (h0 : 0 ≤ r) (h1 : r ≤ 1)
    (hpaddle : paddle ∈ [paddle1, paddle2]) :
    Disjoint (inside (onWay wall paddle1 paddle2 deltaTime s r)) (inside paddle) := by
  apply disjoint_of_solid
  intro hsolid
  have hdt : 0 < deltaTime := by exact_mod_cast h.time.trans_lt htime
  obtain ⟨T, hT, hend, hfirst, hmoves⟩ := exists_tripEnd wall paddle1 paddle2 h.time htime
  rw [onWay_eq hend]
  by_cases hon : GoesOn wall paddle1 paddle2 deltaTime s
  · have hsball : Solid s.ball := hball.congr h.size
    exact (h.clear hon paddle hpaddle hsolid).disjoint hdt hsball (hpaddles.faces hpaddle) hsolid
      hpaddle hT.2 hfirst (mul_nonneg h0 hT.1) (mul_le_of_le_one_left hT.1 h1)
  · rw [hmoves, not_lt] at hon
    rw [le_antisymm hon hT.1, mul_zero, partWay_zero]
    exact h.outside paddle hpaddle hsolid

theorem KeptOut.start (hapart : ∀ paddle ∈ [paddle1, paddle2], ¬ Touch ball paddle) :
    KeptOut wall paddle1 paddle2 deltaTime ball (advanceStart ball) := by
  refine ⟨rfl, le_rfl, ?_, ?_⟩
  · intro paddle hpaddle _
    rw [Set.disjoint_left]
    intro p hball hinside
    exact hapart paddle hpaddle (touch_of_mem_inside hball hinside)
  · intro _ paddle hpaddle _
    exact Or.inl (hapart paddle hpaddle)

/-- A bounce keeps the ball clear of the paddles, unless it turns it inside. -/
theorem KeptOut.next (h : KeptOut wall paddle1 paddle2 deltaTime ball s)
    (hpaddles : Paddles ball paddle1 paddle2) (hball : Solid ball)
    (hturn : GoesOn wall paddle1 paddle2 deltaTime t → ∀ paddle ∈ [paddle1, paddle2],
      ¬ TurnsInside wall paddle1 paddle2 deltaTime s paddle)
    (hst : advanceBody wall paddle1 paddle2 deltaTime s = .inl t) :
    KeptOut wall paddle1 paddle2 deltaTime ball t := by
  have htrip := advanceBody_trip wall paddle1 paddle2 deltaTime s
  rw [hst] at htrip
  cases htrip with
  | bounce htime c hfirst hne hhit =>
    have hdt : 0 < deltaTime := by exact_mod_cast h.time.trans_lt htime
    have hsball : Solid s.ball := hball.congr h.size
    have hfound : (collide wall paddle1 paddle2 deltaTime s).first.1 = true := by rw [hfirst]
    have hc : (collide wall paddle1 paddle2 deltaTime s).first.2 = c := by rw [hfirst]
    refine ⟨(ballBounceOnCollision_size _ _).trans h.size, add_nonneg h.time hhit.toi.1.le, ?_, ?_⟩
    · intro paddle hpaddle _
      have hend := h.onWay_disjoint hpaddles hball htime zero_le_one le_rfl hpaddle
      have hplace : (ballBounceOnCollision { s.ball with pos := c.pos } c.normal).pos =
          (onWay wall paddle1 paddle2 deltaTime s 1).pos := by
        unfold onWay
        rw [tripEnd_of_first hfirst, ballBounceOnCollision_pos]
        simp [linearInterpolate]
      rwa [← inside_congr hplace (ballBounceOnCollision_size _ _)] at hend
    · intro hon paddle hpaddle hsolid
      have hobj : Solid paddle.atRest := hsolid
      have hclear : Clear s.ball paddle.atRest :=
        h.clear ⟨htime, Or.inl hfound⟩ paddle hpaddle hsolid
      change Clear _ paddle.atRest
      refine hclear.bounce hdt hsball.sized hobj.sized (hpaddles.faces hpaddle).resting
        (bounce_pos hhit) hhit.toi ?_ ?_ ?_
      · rw [aabbCollide_atRest, ← hc]
        exact fun hreported => (first_le_paddle wall hpaddle hreported).2
      · rw [aabbCollide_atRest, ← hc]
        exact first_eq_paddle hpaddles.faces1 hpaddles.faces2 hsball.1.le
          (by rw [h.size]; exact hpaddles.gap) hpaddle
      · rw [← hc]
        rintro ⟨hmeets, hx, hy⟩
        exact hturn hon paddle hpaddle ⟨hsolid, hmeets, hx, hy⟩

/-- Where the ball is turned inside, the collision found is the one with the vertical face. -/
theorem TurnsInside.contact (h : TurnsInside wall paddle1 paddle2 deltaTime s paddle)
    (hdt : 0 < deltaTime) (hpaddles : Paddles s.ball paddle1 paddle2) (hball : Solid s.ball)
    (hpaddle : paddle ∈ [paddle1, paddle2])
    (hc : (collide wall paddle1 paddle2 deltaTime s).first.2 = c) :
    xContact s.ball deltaTime c.toi = c := by
  obtain ⟨hsolid, -, hx, hy⟩ := h
  have hobj : Solid paddle.atRest := hsolid
  rw [hc] at hx hy
  have hreported := aabbCollide_of_corner hdt hball.sized hobj.sized
    (hpaddles.faces hpaddle).resting hx hy
  rw [aabbCollide_atRest] at hreported
  have hsame : (aabbCollide s.ball paddle deltaTime .zero).2 =
      (collide wall paddle1 paddle2 deltaTime s).first.2 := by
    apply first_eq_paddle hpaddles.faces1 hpaddles.faces2 hball.1.le hpaddles.gap hpaddle
    · rw [hreported]
    · rw [hreported, hc]
      rfl
  rwa [hreported, hc] at hsame

/-- A ball that is turned inside is inside as soon as it goes on. -/
theorem not_staysOutside_of_turn (hpaddles : Paddles ball paddle1 paddle2) (hball : Solid ball)
    (hs : Head (advanceBody wall paddle1 paddle2 deltaTime) (advanceStart ball) s)
    (hst : advanceBody wall paddle1 paddle2 deltaTime s = .inl t)
    (hon : GoesOn wall paddle1 paddle2 deltaTime t) (hpaddle : paddle ∈ [paddle1, paddle2])
    (hturns : TurnsInside wall paddle1 paddle2 deltaTime s paddle) :
    ¬ StaysOutside wall paddle1 paddle2 deltaTime ball := by
  intro hstays
  have ht := hs.next hst
  have h0 : 0 ≤ s.passedTime := head_passedTime_nonneg hs
  have h0' : 0 ≤ t.passedTime := head_passedTime_nonneg ht
  have hsize := head_ball_size hs
  have hsball : Solid s.ball := hball.congr hsize
  have htrip := advanceBody_trip wall paddle1 paddle2 deltaTime s
  rw [hst] at htrip
  cases htrip with
  | bounce htime c hfirst hne hhit =>
    have hdt : 0 < deltaTime := by exact_mod_cast h0.trans_lt htime
    have hspaddles : Paddles s.ball paddle1 paddle2 :=
      ⟨hpaddles.faces1, hpaddles.faces2, by rw [hsize]; exact hpaddles.gap⟩
    have hc : (collide wall paddle1 paddle2 deltaTime s).first.2 = c := by rw [hfirst]
    have hcontact := hturns.contact hdt hspaddles hsball hpaddle hc
    have hnormal : c.normal = ⟨-dirOf s.ball.velocity.x, 0⟩ := by
      rw [← hcontact]
      rfl
    obtain ⟨hsolid, hmeets, hx, hy⟩ := hturns
    have hobj : Solid paddle.atRest := hsolid
    have hrest := (hpaddles.faces hpaddle).resting
    rw [hc] at hx hy
    have hbefore := hstays s hs htime 1 zero_le_one le_rfl paddle hpaddle
    rw [onWay_eq ((tripEnd_of_first hfirst).trans (bounce_pos hhit)), one_mul] at hbefore
    change Disjoint _ (inside paddle.atRest) at hbefore
    rw [disjoint_inside_iff hsball.sized hobj.sized hsball hobj] at hbefore
    have hsoon := crosses_of_corner hdt hsball.sized hobj.sized hrest hsball hmeets hx hy
      (bounce_pos hhit) hnormal hbefore
    obtain ⟨T, hT, hend, -, hmoves⟩ := exists_tripEnd wall paddle1 paddle2 h0' hon.1
    have hpos := hmoves.mp hon
    obtain ⟨u, hcross, hu, huT⟩ := (hsoon.and (Ioo_mem_nhdsGT hpos)).exists
    have hafter := hstays _ ht hon.1 (u / T) (div_nonneg hu.le hpos.le)
      ((div_le_one hpos).mpr huT.le) paddle hpaddle
    rw [onWay_eq hend, div_mul_cancel₀ _ hpos.ne'] at hafter
    change Disjoint _ (inside paddle.atRest) at hafter
    have hnext : Solid (ballBounceOnCollision { s.ball with pos := c.pos } c.normal) :=
      hsball.congr (ballBounceOnCollision_size _ _)
    rw [disjoint_inside_iff (sized_bounce hsball.sized) hobj.sized hnext hobj] at hafter
    exact hafter hcross

/-- The ball stays out of the paddles in a tick exactly if no bounce after which it goes on turns
it inside. -/
theorem ball_stays_outside_iff (hpaddles : Paddles ball paddle1 paddle2) (hball : Solid ball)
    (hapart : ∀ paddle ∈ [paddle1, paddle2], ¬ Touch ball paddle) :
    StaysOutside wall paddle1 paddle2 deltaTime ball ↔
      ∀ s t, Head (advanceBody wall paddle1 paddle2 deltaTime) (advanceStart ball) s →
        advanceBody wall paddle1 paddle2 deltaTime s = .inl t →
        GoesOn wall paddle1 paddle2 deltaTime t → ∀ paddle ∈ [paddle1, paddle2],
          ¬ TurnsInside wall paddle1 paddle2 deltaTime s paddle := by
  constructor
  · intro hstays s t hs hst hon paddle hpaddle hturns
    exact not_staysOutside_of_turn hpaddles hball hs hst hon hpaddle hturns hstays
  · intro hturn s hs htime r h0 h1 paddle hpaddle
    have hkept : KeptOut wall paddle1 paddle2 deltaTime ball s := by
      refine Head.invariant (I := KeptOut wall paddle1 paddle2 deltaTime ball) (.start hapart) ?_ hs
      intro a b ha hkept hab
      exact hkept.next hpaddles hball (fun hon => hturn a b ha hab hon) hab
    exact hkept.onWay_disjoint hpaddles hball htime h0 h1 hpaddle

end Tick

section Corner

def wideWall : Wall := ⟨320, 0, 0, 1000⟩

noncomputable def sidePaddle : GameObj ℝ := ⟨1 / 2, ⟨475, 160⟩, ⟨0, 0⟩, ⟨10, 50⟩⟩

/-- A ball below the paddle, and partly behind it. -/
noncomputable def lowBall : GameObj ℝ := ⟨1 / 20, ⟨470, 120⟩, ⟨1, 2⟩, ⟨10, 10⟩⟩

attribute [local simp] collide aabbCollide ballWallCollide ballScoreCollide ballXCollide_eq
  ballYCollide_eq contactX contactY dirOf isValidToi getFirstCollision keepEarlier
  aabbGetBoundaries linearInterpolate linearMove vectorAdd vectorMultiply CollInfo.zero
  Vector.zero

theorem wholeFaces_restPaddle : WholeFaces restPaddle := by
  refine ⟨⟨0, 10, ?_, ?_⟩, ⟨135, 185, ?_, ?_⟩⟩ <;> norm_num [restPaddle]

theorem wholeFaces_highPaddle : WholeFaces highPaddle := by
  refine ⟨⟨470, 480, ?_, ?_⟩, ⟨265, 315, ?_, ?_⟩⟩ <;> norm_num [highPaddle]

theorem wholeFaces_sidePaddle : WholeFaces sidePaddle := by
  refine ⟨⟨470, 480, ?_, ?_⟩, ⟨135, 185, ?_, ?_⟩⟩ <;> norm_num [sidePaddle]

theorem ball_stays_outside_highPaddle :
    StaysOutside fieldWall highPaddle restPaddle 2 (diagonalBall 464 314) := by
  have hpaddles : Paddles (diagonalBall 464 314) highPaddle restPaddle := by
    refine ⟨wholeFaces_highPaddle, wholeFaces_restPaddle, Or.inr ?_⟩
    norm_num [Beside, highPaddle, restPaddle, diagonalBall]
  have hapart : ∀ paddle ∈ [highPaddle, restPaddle], ¬ MeetsX (diagonalBall 464 314) paddle := by
    intro paddle hpaddle
    rcases List.mem_pair.mp hpaddle with rfl | rfl
    · norm_num [MeetsX, highPaddle, diagonalBall]
    · norm_num [MeetsX, restPaddle, diagonalBall]
  refine (ball_stays_outside_iff hpaddles (by norm_num [Solid, diagonalBall])
    fun paddle hpaddle htouch => hapart paddle hpaddle htouch.1).mpr ?_
  intro s t hs hst _ paddle hpaddle hturns
  rcases hs.eq_or_of_inl advanceBody_corner with rfl | hlater
  · exact hapart paddle hpaddle hturns.2.1
  · rw [hlater.eq_of_inr advanceBody_pastWall, advanceBody_pastWall] at hst
    cases hst

theorem lowBall_first : (collide wideWall sidePaddle restPaddle 5 (advanceStart lowBall)).first =
    (true, ⟨1, ⟨-1, 0⟩, ⟨475, 130⟩⟩) := by
  norm_num [Collisions.first, advanceStart, wideWall, sidePaddle, restPaddle, lowBall]

theorem advanceBody_lowBall :
    advanceBody wideWall sidePaddle restPaddle 5 (advanceStart lowBall) =
      .inl ⟨ballBounceOnCollision { lowBall with pos := ⟨475, 130⟩ } ⟨-1, 0⟩, 1, some (-1)⟩ := by
  have hscore :
      (collide wideWall sidePaddle restPaddle 5 (advanceStart lowBall)).score.toi ≠ 1 := by
    norm_num [advanceStart, wideWall, lowBall]
  unfold advanceBody
  dsimp only
  rw [if_pos (by norm_num [advanceStart]), lowBall_first, if_neg (by simp), if_neg hscore.symm]
  norm_num [advanceStart]

theorem turnsInside_lowBall :
    TurnsInside wideWall sidePaddle restPaddle 5 (advanceStart lowBall) sidePaddle := by
  have hx : xFaceHit lowBall sidePaddle 5 = (true, ⟨1, ⟨-1, 0⟩, ⟨475, 130⟩⟩) := by
    norm_num [xFaceHit, sidePaddle, lowBall]
  have hy : yFaceHit lowBall sidePaddle 5 = (true, ⟨1, ⟨0, -1⟩, ⟨475, 130⟩⟩) := by
    norm_num [yFaceHit, sidePaddle, lowBall]
  have hfirst : FirstX lowBall sidePaddle 5 (xFaceHit lowBall sidePaddle 5).2.toi :=
    xFaceHit_first (by norm_num) (by rw [hx])
  have hfirst' : FirstY lowBall sidePaddle 5 (yFaceHit lowBall sidePaddle 5).2.toi :=
    yFaceHit_first (by norm_num) (by rw [hy])
  rw [hx] at hfirst
  rw [hy] at hfirst'
  refine ⟨by norm_num [Solid, sidePaddle], ?_, ?_, ?_⟩
  · norm_num [MeetsX, advanceStart, sidePaddle, lowBall]
  · rwa [lowBall_first]
  · rwa [lowBall_first]

/-- The bounce takes the ball under the paddle back, and up into it. -/
theorem ball_enters_sidePaddle :
    Paddles lowBall sidePaddle restPaddle ∧ Solid lowBall ∧
      (∀ paddle ∈ [sidePaddle, restPaddle], ¬ Touch lowBall paddle) ∧
      ¬ StaysOutside wideWall sidePaddle restPaddle 5 lowBall := by
  have hpaddles : Paddles lowBall sidePaddle restPaddle := by
    refine ⟨wholeFaces_sidePaddle, wholeFaces_restPaddle, Or.inr ?_⟩
    norm_num [Beside, sidePaddle, restPaddle, lowBall]
  have hsolid : Solid lowBall := by norm_num [Solid, lowBall]
  refine ⟨hpaddles, hsolid, ?_, ?_⟩
  · intro paddle hpaddle
    rcases List.mem_pair.mp hpaddle with rfl | rfl
    · norm_num [Touch, MeetsX, MeetsY, sidePaddle, lowBall]
    · norm_num [Touch, MeetsX, MeetsY, restPaddle, lowBall]
  · refine not_staysOutside_of_turn hpaddles hsolid (.refl _) advanceBody_lowBall ?_
      List.mem_cons_self turnsInside_lowBall
    -- Four units of time are left.
    have hrest : trunc (((5 : Int) : ℝ) - 1) = 4 := by norm_num
    refine ⟨by norm_num, Or.inr ?_⟩
    rw [hrest]
    decide

end Corner

end CPong
