import CPong.BallContainment
import CPong.Lib.System
import Mathlib.Data.Sign.Basic

/-!
# The ball over many ticks

The velocity of the ball over any number of calls of `ball_advance` without a score: its
slope, its direction and its speed, with the list of all bounces on the way.
-/

namespace CPong

set_option autoImplicit false

open Lib (trunc)
open Lib.Loop (rounds)

section Model
variable {F : Type} [Field F] [LinearOrder F] [Libm F]

/-- The arguments of a call of `ball_bounce_on_collision`. -/
structure Bounce (F : Type) where
  ball : GameObj F
  normal : Vector F

def Bounce.velocity (b : Bounce F) : Vector F := (ballBounceOnCollision b.ball b.normal).velocity

/-- What the call divides by. -/
def Bounce.hyp (b : Bounce F) : F :=
  let velocity := reflectOrthogonal b.ball.velocity b.normal
  Libm.sqrtf (velocity.y * velocity.y + velocity.x * velocity.x)

omit [Libm F] in
def Bounce.onX (b : Bounce F) : Bool := b.normal.x ≠ 0

omit [Libm F] in
def Bounce.onY (b : Bounce F) : Bool := b.normal.y ≠ 0

/-- The arguments of a call of `ball_advance`, apart from the ball. -/
structure BallCall (F : Type) where
  fuel : Nat
  wall : Wall
  paddle1 : GameObj F
  paddle2 : GameObj F
  deltaTime : Int

structure Rally (F : Type) where
  ball : GameObj F
  bounces : List (Bounce F)

variable [FloorRing F]

def BallCall.body (c : BallCall F) : AdvanceState F → AdvanceState F ⊕ Advanced F :=
  advanceBody c.wall c.paddle1 c.paddle2 c.deltaTime

omit [Libm F] in
/-- The bounce of a trip that goes round again. -/
def BallCall.bounce (c : BallCall F) (s : AdvanceState F) : Bounce F :=
  let collInfo := (collide c.wall c.paddle1 c.paddle2 c.deltaTime s).first.2
  ⟨{ s.ball with pos := collInfo.pos }, collInfo.normal⟩

/-- One call of `ball_advance`, which has to return a ball: a score writes none. -/
def rallyStep (r : Rally F) (c : BallCall F) : Option (Rally F) :=
  (ballAdvance c.fuel c.wall c.paddle1 c.paddle2 r.ball c.deltaTime).bind fun a =>
    a.ballUpd.map fun upd =>
      ⟨upd, r.bounces ++ (rounds c.body c.fuel (advanceStart r.ball)).map c.bounce⟩

end Model

section Trip
variable {c : BallCall ℝ} {s t : AdvanceState ℝ}

/-- The normal of a collision lies on one of the axes. -/
def OneAxis (normal : Vector ℝ) : Prop :=
  normal.x ≠ 0 ∧ normal.y = 0 ∨ normal.x = 0 ∧ normal.y ≠ 0

theorem Hit.oneAxis {ball : GameObj ℝ} {deltaTime : Int} {xs ys : List Int} {i : CollInfo ℝ}
    (h : Hit ball deltaTime xs ys i) : OneAxis i.normal := by
  rcases h with ⟨x, -, hx⟩ | ⟨y, -, hy⟩
  · rw [hx.normal]
    exact Or.inl ⟨neg_ne_zero.mpr (dirOf_ne_zero _), rfl⟩
  · rw [hy.normal]
    exact Or.inr ⟨rfl, neg_ne_zero.mpr (dirOf_ne_zero _)⟩

theorem trip_bounces (h : c.body s = .inl t) :
    OneAxis (c.bounce s).normal ∧ t.ball.velocity = (c.bounce s).velocity := by
  have htrip := advanceBody_trip c.wall c.paddle1 c.paddle2 c.deltaTime s
  unfold BallCall.body at h
  rw [h] at htrip
  unfold Bounce.velocity BallCall.bounce
  cases htrip with
  | bounce htime i hfirst hne hhit =>
    rw [hfirst]
    exact ⟨hhit.oneAxis, rfl⟩

theorem trip_returns {a : Advanced ℝ} {upd : GameObj ℝ} (h : c.body s = .inr a)
    (hupd : a.ballUpd = some upd) : upd.velocity = s.ball.velocity := by
  have htrip := advanceBody_trip c.wall c.paddle1 c.paddle2 c.deltaTime s
  unfold BallCall.body at h
  rw [h] at htrip
  cases htrip with
  | timeUp htime =>
    cases hupd
    rfl
  | free htime hnone =>
    cases hupd
    rfl
  | score htime i hi hfirst heq => cases hupd

end Trip

section Deflection
variable {v0 v : Vector ℝ} {bounces : List (Bounce ℝ)} {b : Bounce ℝ}

/-- What the bounces `bounces` may have made of the velocity `v0`. -/
structure Deflected (v0 : Vector ℝ) (bounces : List (Bounce ℝ)) (v : Vector ℝ) : Prop where
  slope : |v.x| * |v0.y| = |v.y| * |v0.x|
  sign_x : SignType.sign v.x = (-1) ^ bounces.countP Bounce.onX * SignType.sign v0.x
  sign_y : SignType.sign v.y = (-1) ^ bounces.countP Bounce.onY * SignType.sign v0.y
  slowest : speedOf v0 ≤ speedOf v
  fastest : speedOf v ≤ max (speedOf v0) 0.64

theorem Deflected.none : Deflected v0 [] v0 :=
  ⟨mul_comm _ _, by simp, by simp, le_rfl, le_max_left _ _⟩

/-- A reflection turns one sign, on the axis of the normal, and a stretch turns none. -/
theorem Deflected.reflect {k : ℝ} (h : Deflected v0 bounces v) (haxis : OneAxis b.normal)
    (hk : 1 ≤ k) (hcap : k * speedOf v ≤ max (speedOf v) 0.64) :
    Deflected v0 (bounces ++ [b])
      ⟨k * (reflectOrthogonal v b.normal).x, k * (reflectOrthogonal v b.normal).y⟩ := by
  have hpos : 0 < k := zero_lt_one.trans_le hk
  have hspeed : speedOf ⟨k * (reflectOrthogonal v b.normal).x,
      k * (reflectOrthogonal v b.normal).y⟩ = k * speedOf v := by
    rw [speedOf_scale _ hpos.le, speedOf_reflect]
  have hnn : 0 ≤ speedOf v := Real.sqrt_nonneg _
  refine ⟨?_, ?_, ?_, ?_, ?_⟩
  · have hx : |(reflectOrthogonal v b.normal).x| = |v.x| := by
      unfold reflectOrthogonal
      split <;> simp
    have hy : |(reflectOrthogonal v b.normal).y| = |v.y| := by
      unfold reflectOrthogonal
      split <;> simp
    simp only [abs_mul, hx, hy, mul_assoc, h.slope]
  · rw [List.countP_append, pow_add, sign_mul, sign_pos hpos, one_mul]
    unfold reflectOrthogonal
    rcases haxis with ⟨hx, hy⟩ | ⟨hx, hy⟩
    · rw [if_neg hx]
      simp [Left.sign_neg, Bounce.onX, hx, h.sign_x]
    · rw [if_pos hx]
      simp [Bounce.onX, hx, h.sign_x]
  · rw [List.countP_append, pow_add, sign_mul, sign_pos hpos, one_mul]
    unfold reflectOrthogonal
    rcases haxis with ⟨hx, hy⟩ | ⟨hx, hy⟩
    · rw [if_neg hx]
      simp [Bounce.onY, hy, h.sign_y]
    · rw [if_pos hx]
      simp [Left.sign_neg, Bounce.onY, hy, h.sign_y]
  · rw [hspeed]
    exact h.slowest.trans (le_mul_of_one_le_left hnn hk)
  · rw [hspeed]
    exact hcap.trans (max_le h.fastest (le_max_right _ _))

theorem Deflected.bounce (h : Deflected v0 bounces b.ball.velocity) (haxis : OneAxis b.normal) :
    Deflected v0 (bounces ++ [b]) b.velocity := by
  obtain ⟨k, hk, hvel, hcap⟩ := ballBounceOnCollision_velocity b.ball b.normal
  unfold Bounce.velocity
  rw [hvel]
  exact h.reflect haxis hk hcap

theorem Bounce.hyp_eq (b : Bounce ℝ) : b.hyp = speedOf b.ball.velocity := by
  rw [← speedOf_reflect b.normal]
  unfold Bounce.hyp speedOf
  rw [add_comm]
  rfl

theorem Bounce.speedOf_le (b : Bounce ℝ) : speedOf b.ball.velocity ≤ speedOf b.velocity := by
  obtain ⟨k, hk, hvel, -⟩ := ballBounceOnCollision_velocity b.ball b.normal
  unfold Bounce.velocity
  rw [hvel, speedOf_scale _ (zero_le_one.trans hk), speedOf_reflect]
  exact le_mul_of_one_le_left (Real.sqrt_nonneg _) hk

end Deflection

section Run
variable {v0 v : Vector ℝ} {bounces : List (Bounce ℝ)}

/-- Before each bounce, and after the last one, the velocity is a deflection of `v0`, and no
bounce divides by zero or slows the ball. -/
structure Rallied (v0 : Vector ℝ) (bounces : List (Bounce ℝ)) (v : Vector ℝ) : Prop where
  now : Deflected v0 bounces v
  before : ∀ past b, past ++ [b] <+: bounces → Deflected v0 past b.ball.velocity
  defined : ∀ b ∈ bounces, b.hyp ≠ 0
  faster : ∀ b ∈ bounces, speedOf b.ball.velocity ≤ speedOf b.velocity

theorem Rallied.start : Rallied v0 [] v0 where
  now := .none
  before past b h := by simp at h
  defined b hb := absurd hb List.not_mem_nil
  faster b hb := absurd hb List.not_mem_nil

theorem Rallied.bounce {b : Bounce ℝ} (h : Rallied v0 bounces b.ball.velocity)
    (hv0 : speedOf v0 ≠ 0) (haxis : OneAxis b.normal) :
    Rallied v0 (bounces ++ [b]) b.velocity where
  now := h.now.bounce haxis
  before past b' hpre := by
    rcases List.prefix_concat_iff.mp hpre with heq | hpre
    · obtain ⟨rfl, hb⟩ := List.append_inj' heq rfl
      cases hb
      exact h.now
    · exact h.before past b' hpre
  defined b' hb' := by
    rcases List.mem_append.mp hb' with hb' | hb'
    · exact h.defined b' hb'
    · rw [List.mem_singleton.mp hb', b.hyp_eq]
      have hpos : 0 < speedOf v0 := lt_of_le_of_ne (Real.sqrt_nonneg _) hv0.symm
      exact (hpos.trans_le h.now.slowest).ne'
  faster b' hb' := by
    rcases List.mem_append.mp hb' with hb' | hb'
    · exact h.faster b' hb'
    · rw [List.mem_singleton.mp hb']
      exact b.speedOf_le

/-- One call of `ball_advance`, by the loop's history of bounces. -/
theorem rallied_step {r r' : Rally ℝ} {c : BallCall ℝ} (hv0 : speedOf v0 ≠ 0)
    (hr : Rallied v0 r.bounces r.ball.velocity) (h : rallyStep r c = some r') :
    Rallied v0 r'.bounces r'.ball.velocity := by
  obtain ⟨a, hrun, hmap⟩ := Option.bind_eq_some_iff.mp h
  obtain ⟨upd, hupd, rfl⟩ := Option.map_eq_some_iff.mp hmap
  have htrip (l : List (AdvanceState ℝ)) (s t : AdvanceState ℝ)
      (hs : Rallied v0 (r.bounces ++ l.map c.bounce) s.ball.velocity) (hst : c.body s = .inl t) :
      Rallied v0 (r.bounces ++ (l ++ [s]).map c.bounce) t.ball.velocity := by
    obtain ⟨haxis, hvel⟩ := trip_bounces hst
    rw [List.map_append, ← List.append_assoc, hvel]
    exact Rallied.bounce (b := c.bounce s) hs hv0 haxis
  have hstart : Rallied v0 (r.bounces ++ [].map c.bounce) (advanceStart r.ball).ball.velocity := by
    rw [List.map_nil, List.append_nil]
    exact hr
  obtain ⟨t, ht, hlast⟩ := Lib.Loop.run_rounds htrip hstart hrun
  rw [trip_returns ht hupd]
  exact hlast

theorem speed_step {r r' : Rally ℝ} {c : BallCall ℝ} (h : rallyStep r c = some r') :
    speedOf r.ball.velocity ≤ speedOf r'.ball.velocity := by
  obtain ⟨a, hrun, hmap⟩ := Option.bind_eq_some_iff.mp h
  obtain ⟨upd, hupd, rfl⟩ := Option.map_eq_some_iff.mp hmap
  obtain ⟨t, hhead, ht⟩ := Lib.Loop.evals_iff.mp ⟨c.fuel, hrun⟩
  rw [trip_returns ht hupd]
  refine hhead.invariant (I := fun s => speedOf r.ball.velocity ≤ speedOf s.ball.velocity) le_rfl ?_
  intro s s' _ hs hss
  rw [(trip_bounces hss).2]
  exact hs.trans (c.bounce s).speedOf_le

/-- Over any number of ticks without a score the slope of the path stays, bounces alone turn
the ball, and its speed only grows, to `0.64` at most where it was not more at the start. -/
theorem rally_velocity {ball : GameObj ℝ} (hspeed : speedOf ball.velocity ≠ 0)
    {ks ls : List (BallCall ℝ)} {s t : Rally ℝ}
    (hs : Lib.System.run rallyStep ⟨ball, []⟩ ks = some s)
    (ht : Lib.System.run rallyStep s ls = some t) :
    Rallied ball.velocity t.bounces t.ball.velocity ∧
      speedOf s.ball.velocity ≤ speedOf t.ball.velocity := by
  have hrun : Lib.System.run rallyStep ⟨ball, []⟩ (ks ++ ls) = some t := by
    rw [Lib.System.run_append, hs]
    exact ht
  constructor
  · exact Lib.System.invariant (I := fun r => Rallied ball.velocity r.bounces r.ball.velocity)
      (fun r c r' hr hstep => rallied_step hspeed hr hstep) .start hrun
  · exact Lib.System.invariant
      (I := fun r : Rally ℝ => speedOf s.ball.velocity ≤ speedOf r.ball.velocity)
      (fun r c r' hr hstep => hr.trans (speed_step hstep)) le_rfl ht

noncomputable def cornerCall : BallCall ℝ := ⟨2, fieldWall, highPaddle, restPaddle, 2⟩

/-- A tick with one bounce. -/
theorem rally_velocity_corner :
    ∃ t, Lib.System.run rallyStep ⟨diagonalBall 464 314, []⟩ [cornerCall] = some t ∧
      t.bounces.length = 1 ∧ Rallied ⟨1, 1⟩ t.bounces t.ball.velocity := by
  have hrounds : rounds cornerCall.body 2 (advanceStart (diagonalBall 464 314)) =
      [advanceStart (diagonalBall 464 314)] := by
    simp only [rounds, BallCall.body, cornerCall, advanceBody_corner, advanceBody_pastWall]
  have hstep : rallyStep ⟨diagonalBall 464 314, []⟩ cornerCall =
      some ⟨⟨1 / 20, ⟨464, 316⟩, ⟨-1, 1⟩, ⟨10, 10⟩⟩,
        [cornerCall.bounce (advanceStart (diagonalBall 464 314))]⟩ := by
    have hcall : ballAdvance cornerCall.fuel cornerCall.wall cornerCall.paddle1
        cornerCall.paddle2 (diagonalBall 464 314) cornerCall.deltaTime = _ := ballAdvance_corner
    unfold rallyStep
    rw [hcall]
    exact congrArg some (congrArg (Rally.mk _) (congrArg (List.map cornerCall.bounce) hrounds))
  have hspeed : speedOf (diagonalBall 464 314).velocity ≠ 0 := by
    have hfast := speedOf_diagonal (v := (diagonalBall 464 314).velocity)
      (by norm_num [diagonalBall])
    linarith
  have htick : Lib.System.run rallyStep ⟨diagonalBall 464 314, []⟩ [cornerCall] = some _ :=
    Lib.System.run_cons_eq_some.mpr ⟨_, hstep, rfl⟩
  have hdone (t : Rally ℝ) : Lib.System.run rallyStep t [] = some t := rfl
  exact ⟨_, htick, rfl, (rally_velocity hspeed htick (hdone _)).1⟩

end Run

end CPong
