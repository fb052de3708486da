import CPong.BallContainment

/-!
# One long tick and two short ones

As long as nothing bounces, a tick of `a + b` milliseconds does what a tick of `a` and one
of `b` do. A bounce adds the part `toi` of the tick to a time in milliseconds, and what is
left of the tick no longer depends on when the bounce was.
-/

namespace CPong

set_option autoImplicit false

open Lib (trunc)
open Lib.Loop (Evals Head)

section Goals
variable (wall : Wall) (ball : GameObj ℝ)

noncomputable def goalBehind : Int := if ball.velocity.x > 0 then wall.left else wall.right

noncomputable def goalDistance : ℝ :=
  (contactX ball (goalAhead wall ball) - ball.pos.x) * ball.velocity.x

def GoalBehind : Prop :=
  (contactX ball (goalBehind wall ball) - ball.pos.x) * ball.velocity.x ≤ 0

variable {wall ball} {deltaTime a b : Int}

theorem GoalBehind.of_inside (hin : BetweenGoals wall ball ball.pos.x) (hsize : 0 ≤ ball.size.x) :
    GoalBehind wall ball := by
  obtain ⟨hlo, hhi⟩ := hin
  unfold GoalBehind contactX goalBehind dirOf
  split
  · rename_i hv
    apply mul_nonpos_of_nonpos_of_nonneg _ hv.le
    push_cast
    linarith
  · rename_i hv
    apply mul_nonpos_of_nonneg_of_nonpos _ (not_lt.mp hv)
    push_cast
    linarith

theorem goalAhead_linearMove : goalAhead wall (linearMove ball a) = goalAhead wall ball := rfl

theorem goalBehind_linearMove : goalBehind wall (linearMove ball a) = goalBehind wall ball := rfl

theorem contactX_linearMove {x : Int} : contactX (linearMove ball a) x = contactX ball x := rfl

theorem GoalBehind.linearMove (h : GoalBehind wall ball) (ha : 0 ≤ a) :
    GoalBehind wall (linearMove ball a) := by
  have hway : 0 ≤ ball.velocity.x * ball.velocity.x * (a : ℝ) :=
    mul_nonneg (mul_self_nonneg _) (by exact_mod_cast ha)
  unfold GoalBehind at h ⊢
  rw [goalBehind_linearMove, contactX_linearMove, linearMove_pos_x, linearMove_velocity]
  linarith

theorem goalDistance_linearMove : goalDistance wall (linearMove ball a) =
    goalDistance wall ball - ball.velocity.x * ball.velocity.x * a := by
  unfold goalDistance
  rw [goalAhead_linearMove, contactX_linearMove, linearMove_pos_x, linearMove_velocity]
  ring

theorem ballXCollide_ahead (hdt : 0 < deltaTime) (c : CollInfo ℝ) :
    (ballXCollide ball (goalAhead wall ball) deltaTime c).1 = true ↔ 0 < goalDistance wall ball ∧
      goalDistance wall ball ≤ ball.velocity.x * ball.velocity.x * deltaTime := by
  have hdt' : (0 : ℝ) < deltaTime := by exact_mod_cast hdt
  rw [ballXCollide_fst, ballXCollide_toi]
  exact valid_div_iff hdt'

theorem ballXCollide_behind (h : GoalBehind wall ball) (hdt : 0 < deltaTime) (c : CollInfo ℝ) :
    (ballXCollide ball (goalBehind wall ball) deltaTime c).1 = false := by
  have hdt' : (0 : ℝ) < deltaTime := by exact_mod_cast hdt
  rw [ballXCollide_fst, ballXCollide_toi, Bool.eq_false_iff]
  intro hvalid
  exact absurd ((valid_div_iff hdt').mp hvalid).1 (not_lt.mpr h)

/-- The goal test asks about both lines, but only the one ahead can be hit. -/
theorem ballScoreCollide_fst (h : GoalBehind wall ball) (hdt : 0 < deltaTime) :
    (ballScoreCollide wall ball deltaTime .zero).1 =
      if (ballXCollide ball (goalAhead wall ball) deltaTime .zero).1 then
        if ball.velocity.x > 0 then 1 else 0
      else -1 := by
  have hahead (c : CollInfo ℝ) :
      (ballXCollide ball (goalAhead wall ball) deltaTime c).1 = true ↔ _ := ballXCollide_ahead hdt c
  have hbehind := ballXCollide_behind h hdt
  unfold ballScoreCollide
  dsimp only
  by_cases hv : ball.velocity.x > 0
  · have hgb : goalBehind wall ball = wall.left := if_pos hv
    have hga : goalAhead wall ball = wall.right := if_pos hv
    rw [hgb] at hbehind
    rw [hga] at hahead ⊢
    rw [hbehind, if_neg Bool.false_ne_true, if_pos hv]
    by_cases hr : (ballXCollide ball wall.right deltaTime .zero).1 = true
    · rw [if_pos ((hahead _).mpr ((hahead _).mp hr)), if_pos hr]
    · rw [if_neg fun hc => hr ((hahead _).mpr ((hahead _).mp hc)), if_neg hr]
  · have hgb : goalBehind wall ball = wall.right := if_neg hv
    have hga : goalAhead wall ball = wall.left := if_neg hv
    rw [hgb] at hbehind
    rw [hga] at hahead ⊢
    rw [hbehind, if_neg Bool.false_ne_true, if_neg hv]
    split
    · rfl
    · rfl

/-- The goal test sees the goal line ahead and tells which it is. -/
theorem ballScoreCollide_ahead (h : GoalBehind wall ball) (hdt : 0 < deltaTime) :
    (isValidToi (ballScoreCollide wall ball deltaTime .zero).2.toi = true ↔
      0 < goalDistance wall ball ∧
        goalDistance wall ball ≤ ball.velocity.x * ball.velocity.x * deltaTime) ∧
    (isValidToi (ballScoreCollide wall ball deltaTime .zero).2.toi = true →
      (ballScoreCollide wall ball deltaTime .zero).1 = if ball.velocity.x > 0 then 1 else 0) := by
  have hindex := ballScoreCollide_fst h hdt
  have hfound : (ballXCollide ball (goalAhead wall ball) deltaTime .zero).1 = true ↔
      isValidToi (ballScoreCollide wall ball deltaTime .zero).2.toi = true := by
    constructor
    · intro hahead
      rw [ballXCollide_fst] at hahead
      exact ballScoreCollide_valid (goalAhead_mem wall ball) hahead
    · intro hvalid
      by_contra hnot
      rw [if_neg hnot] at hindex
      rcases ballScoreCollide_index wall ball deltaTime .zero with hno | ⟨hyes, -⟩
      · rw [hno.2] at hvalid
        cases hvalid
      · rw [hindex] at hyes
        omega
  rw [← hfound, ballXCollide_ahead hdt]
  refine ⟨Iff.rfl, ?_⟩
  intro hreach
  rw [hindex, if_pos ((ballXCollide_ahead hdt _).mpr hreach)]

end Goals

section Split
variable (wall : Wall) (paddle1 paddle2 : GameObj ℝ)

/-- The call does not bounce the ball: what its first trip finds is nothing or a goal. -/
def NoBounce (deltaTime : Int) (ball : GameObj ℝ) : Prop :=
  (collide wall paddle1 paddle2 deltaTime (advanceStart ball)).first.1 = true →
    (collide wall paddle1 paddle2 deltaTime (advanceStart ball)).first.2.toi =
      (collide wall paddle1 paddle2 deltaTime (advanceStart ball)).score.toi

/-- The first trip of the call finds a goal line in reach. -/
def GoalInReach (deltaTime : Int) (ball : GameObj ℝ) : Prop :=
  isValidToi (ballScoreCollide wall ball deltaTime .zero).2.toi = true

/-- `ball_advance` of `a` milliseconds and, if it did not score, of `b` more. -/
noncomputable def ballAdvanceTwice (fuel : Nat) (ball : GameObj ℝ) (a b : Int) :
    Option (Advanced ℝ) := do
  let first ← ballAdvance fuel wall paddle1 paddle2 ball a
  match first.ballUpd with
  | none => some first
  | some upd => ballAdvance fuel wall paddle1 paddle2 upd b

/-- One call and two give the same ball and the same score. -/
def TickSplits (ball : GameObj ℝ) (a b : Int) : Prop :=
  ∃ fuel r, ballAdvance fuel wall paddle1 paddle2 ball (a + b) = some r ∧
    ballAdvanceTwice wall paddle1 paddle2 fuel ball a b = some r

def Apart (first second : GameObj ℝ) : Prop :=
  (aabbGetBoundaries first).right < (aabbGetBoundaries second).left ∨
    (aabbGetBoundaries second).right < (aabbGetBoundaries first).left ∨
    (aabbGetBoundaries first).up < (aabbGetBoundaries second).down ∨
    (aabbGetBoundaries second).up < (aabbGetBoundaries first).down

def TouchesNothing (ball : GameObj ℝ) : Prop :=
  StrictlyInside wall ball ∧ Apart ball paddle1 ∧ Apart ball paddle2

def OneAtATime (c : Collisions ℝ) : Prop :=
  [c.paddle1, c.paddle2, c.wall, c.score].Pairwise fun first second =>
    isValidToi first.toi → isValidToi second.toi → first.toi ≠ second.toi

def RunsOneAtATime (deltaTime : Int) (ball : GameObj ℝ) : Prop :=
  ∀ s, Head (advanceBody wall paddle1 paddle2 deltaTime) (advanceStart ball) s →
    OneAtATime (collide wall paddle1 paddle2 deltaTime s)

/-- A split that gives the collision tests no occasion to go wrong. -/
structure QuietSplit (ball : GameObj ℝ) (a b : Int) : Prop where
  positive : 0 < a ∧ 0 < b
  rest : paddle1.velocity = .zero ∧ paddle2.velocity = .zero
  clear : TouchesNothing wall paddle1 paddle2 ball
  long : RunsOneAtATime wall paddle1 paddle2 (a + b) ball
  first : RunsOneAtATime wall paddle1 paddle2 a ball
  second : ∀ fuel r upd, ballAdvance fuel wall paddle1 paddle2 ball a = some r →
    r.ballUpd = some upd → TouchesNothing wall paddle1 paddle2 upd ∧
      RunsOneAtATime wall paddle1 paddle2 b upd

variable {wall paddle1 paddle2} {ball : GameObj ℝ} {deltaTime a b : Int}

theorem collide_score_start (wall : Wall) (paddle1 paddle2 ball : GameObj ℝ) (deltaTime : Int) :
    (collide wall paddle1 paddle2 deltaTime (advanceStart ball)).score =
      (ballScoreCollide wall ball deltaTime .zero).2 := by
  unfold collide advanceStart
  rw [sub_zero, Lib.trunc_intCast]

theorem collide_scoredIndex_start (wall : Wall) (paddle1 paddle2 ball : GameObj ℝ)
    (deltaTime : Int) :
    (collide wall paddle1 paddle2 deltaTime (advanceStart ball)).scoredIndex =
      (ballScoreCollide wall ball deltaTime .zero).1 := by
  unfold collide advanceStart
  rw [sub_zero, Lib.trunc_intCast]

/-- Without a bounce the first trip is the last: a goal in reach or a straight move. -/
theorem ballAdvance_of_noBounce (hdt : 0 < deltaTime)
    (h : NoBounce wall paddle1 paddle2 deltaTime ball) (fuel : Nat) :
    ballAdvance (fuel + 1) wall paddle1 paddle2 ball deltaTime = some
      (if isValidToi (ballScoreCollide wall ball deltaTime .zero).2.toi = true then
        ⟨none, some (ballScoreCollide wall ball deltaTime .zero).1⟩
      else ⟨some (linearMove ball deltaTime), some (-1)⟩) := by
  have htime : (advanceStart ball).passedTime < deltaTime := by
    change (0 : ℝ) < deltaTime
    exact_mod_cast hdt
  have hrest : trunc ((deltaTime : ℝ) - (advanceStart ball).passedTime) = deltaTime := by
    unfold advanceStart
    rw [sub_zero, Lib.trunc_intCast]
  apply Lib.Loop.run_succ_inr
  unfold advanceBody
  rw [if_pos htime]
  dsimp only
  rw [hrest, collide_scoredIndex_start]
  by_cases hfirst : (collide wall paddle1 paddle2 deltaTime (advanceStart ball)).first.1 = true
  · have heq := h hfirst
    have hvalid := (Collisions.first_hit hfirst).2
    rw [heq, collide_score_start] at hvalid
    rw [if_neg (not_not.mpr hfirst), if_pos heq, if_pos hvalid]
  · have hnone : isValidToi (ballScoreCollide wall ball deltaTime .zero).2.toi ≠ true := by
      intro hvalid
      rw [← collide_score_start wall paddle1 paddle2] at hvalid
      have hmem : (collide wall paddle1 paddle2 deltaTime (advanceStart ball)).score ∈
          [(collide wall paddle1 paddle2 deltaTime (advanceStart ball)).paddle1,
            (collide wall paddle1 paddle2 deltaTime (advanceStart ball)).paddle2,
            (collide wall paddle1 paddle2 deltaTime (advanceStart ball)).wall,
            (collide wall paddle1 paddle2 deltaTime (advanceStart ball)).score] := by simp
      exact hfirst (getFirstCollision_le (r := .zero) hmem hvalid).1
    rw [if_pos hfirst, if_neg hnone]
    rfl

/-- After one bounce a tick goes on for one millisecond less than it has, whenever in the
tick the bounce was. -/
theorem ballAdvance_of_one_bounce {s : AdvanceState ℝ}
    (hbounce : advanceBody wall paddle1 paddle2 deltaTime (advanceStart ball) = .inl s)
    (htime : s.passedTime < deltaTime)
    (hnone : (collide wall paddle1 paddle2 deltaTime s).first.1 = false) :
    ballAdvance 2 wall paddle1 paddle2 ball deltaTime =
      some ⟨some (linearMove s.ball (deltaTime - 1)), some (-1)⟩ := by
  have hpassed : 0 < s.passedTime ∧ s.passedTime ≤ 1 ∧ (0 : ℝ) < deltaTime := by
    have htrip := advanceBody_trip wall paddle1 paddle2 deltaTime (advanceStart ball)
    rw [hbounce] at htrip
    cases htrip with
    | bounce hstart c hfirst hne hhit =>
      change (0 : ℝ) < deltaTime at hstart
      change 0 < (0 : ℝ) + c.toi ∧ (0 : ℝ) + c.toi ≤ 1 ∧ (0 : ℝ) < deltaTime
      rw [zero_add]
      exact ⟨hhit.toi.1, hhit.toi.2, hstart⟩
  have hdt : 0 < deltaTime := by exact_mod_cast hpassed.2.2
  unfold ballAdvance
  rw [Lib.Loop.run_succ_inl hbounce]
  apply Lib.Loop.run_succ_inr
  unfold advanceBody
  rw [if_pos htime, Lib.trunc_intCast_sub hpassed.1 hpassed.2.1 hdt]
  dsimp only
  rw [hnone, if_pos Bool.false_ne_true]

theorem linearMove_add : linearMove (linearMove ball a) b = linearMove ball (a + b) := by
  ext
  · rfl
  · simp only [linearMove_pos_x, linearMove_velocity]
    push_cast
    ring
  · simp only [linearMove_pos_y, linearMove_velocity]
    push_cast
    ring
  all_goals rfl

/-- A tick can be split where nothing bounces in it, nor in either part; the second part is only
asked about if the first does not score. -/
theorem tick_splitting (ha : 0 < a) (hb : 0 < b) (hin : StrictlyInside wall ball)
    (hsize : 0 ≤ ball.size.x) (hlong : NoBounce wall paddle1 paddle2 (a + b) ball)
    (hfirst : NoBounce wall paddle1 paddle2 a ball)
    (hsecond : ¬ GoalInReach wall a ball → NoBounce wall paddle1 paddle2 b (linearMove ball a)) :
    TickSplits wall paddle1 paddle2 ball a b := by
  have hbehind : GoalBehind wall ball := .of_inside hin.inside.1 hsize
  have hab : 0 < a + b := by omega
  obtain ⟨hvab, hiab⟩ := ballScoreCollide_ahead hbehind hab
  obtain ⟨hva, hia⟩ := ballScoreCollide_ahead hbehind ha
  obtain ⟨hvb, hib⟩ := ballScoreCollide_ahead (hbehind.linearMove ha.le) hb
  rw [goalDistance_linearMove, linearMove_velocity] at hvb
  refine ⟨1, _, ballAdvance_of_noBounce hab hlong 0, ?_⟩
  unfold ballAdvanceTwice
  rw [ballAdvance_of_noBounce ha hfirst 0]
  have hb' : (0 : ℝ) < b := by exact_mod_cast hb
  have hvv := mul_nonneg (mul_self_nonneg ball.velocity.x) hb'.le
  push_cast at hvab
  by_cases hga : isValidToi (ballScoreCollide wall ball a .zero).2.toi = true
  · have hgab : isValidToi (ballScoreCollide wall ball (a + b) .zero).2.toi = true := by
      obtain ⟨hpos, hle⟩ := hva.mp hga
      exact hvab.mpr ⟨hpos, by linarith⟩
    rw [if_pos hga, if_pos hgab, hia hga, hiab hgab]
    rfl
  · rw [if_neg hga]
    apply (ballAdvance_of_noBounce hb (hsecond hga) 0).trans
    by_cases hgb : isValidToi (ballScoreCollide wall (linearMove ball a) b .zero).2.toi = true
    · have hgab : isValidToi (ballScoreCollide wall ball (a + b) .zero).2.toi = true := by
        obtain ⟨hpos, hle⟩ := hvb.mp hgb
        have hva0 : 0 ≤ ball.velocity.x * ball.velocity.x * (a : ℝ) :=
          mul_nonneg (mul_self_nonneg _) (by exact_mod_cast ha.le)
        exact hvab.mpr ⟨by linarith, by linarith⟩
      rw [if_pos hgb, if_pos hgab, hib hgb, hiab hgab]
      rfl
    · have hgab : isValidToi (ballScoreCollide wall ball (a + b) .zero).2.toi ≠ true := by
        intro hgab
        obtain ⟨hpos, hle⟩ := hvab.mp hgab
        have hpast : ball.velocity.x * ball.velocity.x * a < goalDistance wall ball := by
          by_contra hnot
          exact hga (hva.mpr ⟨hpos, not_lt.mp hnot⟩)
        exact hgb (hvb.mpr ⟨by linarith, by linarith⟩)
      rw [if_neg hgb, if_neg hgab, linearMove_add]

end Split

section Vertical

/-- A ball half way between the goals, clear of the paddles, that moves straight up or down. -/
noncomputable def verticalBall (y v : ℝ) : GameObj ℝ := ⟨1 / 20, ⟨240, y⟩, ⟨0, v⟩, ⟨10, 10⟩⟩

noncomputable def midPaddle (x : ℝ) : GameObj ℝ := ⟨1 / 2, ⟨x, 160⟩, ⟨0, 0⟩, ⟨10, 50⟩⟩

def wallOnly (w : CollInfo ℝ) : Collisions ℝ :=
  ⟨⟨-1, ⟨0, 0⟩, ⟨0, 0⟩⟩, ⟨-1, ⟨0, 0⟩, ⟨0, 0⟩⟩, w, ⟨0, ⟨0, 0⟩, ⟨0, 0⟩⟩, -1⟩

theorem wallOnly_first_of_valid {w : CollInfo ℝ} (h : isValidToi w.toi = true) :
    (wallOnly w).first = (true, w) := by
  have hw := isValidToi_iff.mp h
  have hlt : w.toi < 99 := hw.2.trans_lt (by norm_num)
  norm_num [wallOnly, Collisions.first, getFirstCollision, keepEarlier, isValidToi, hw.1, hw.2, hlt,
    CollInfo.zero, hlt.ne]

theorem wallOnly_first_of_not_valid {w : CollInfo ℝ} (h : isValidToi w.toi ≠ true) :
    (wallOnly w).first.1 = false := by
  norm_num [wallOnly, Collisions.first, getFirstCollision, keepEarlier, h, CollInfo.zero]

theorem wallOnly_oneAtATime (w : CollInfo ℝ) : OneAtATime (wallOnly w) := by
  norm_num [OneAtATime, wallOnly]

attribute [local simp] collide aabbCollide ballWallCollide ballScoreCollide ballXCollide_eq
  ballYCollide_eq contactX contactY dirOf isValidToi getFirstCollision keepEarlier
  aabbGetBoundaries linearInterpolate linearMove vectorAdd vectorMultiply CollInfo.zero
  Vector.zero fieldWall

/-- Above the paddles a ball that rises can hit the top wall alone. -/
theorem collide_rise {y passed : ℝ} {dt : Int} (hy : 185 ≤ y) (hdt : 0 < dt) (scored : Option Int) :
    collide fieldWall (midPaddle 475) (midPaddle 5) dt ⟨verticalBall y 1, passed, scored⟩ =
      wallOnly (if isValidToi ((315 - y) / dt) then ⟨(315 - y) / dt, ⟨0, -1⟩, ⟨240, 315⟩⟩
        else ⟨99, ⟨0, 0⟩, ⟨0, 0⟩⟩) := by
  have hdt' : (0 : ℝ) < dt := by exact_mod_cast hdt
  have hup : (180 - y) / dt ≤ 0 := div_nonpos_of_nonpos_of_nonneg (by linarith) hdt'.le
  have hdown : (130 - y) / dt ≤ 0 := div_nonpos_of_nonpos_of_nonneg (by linarith) hdt'.le
  have hfloor : (-5 - y) / dt ≤ 0 := div_nonpos_of_nonpos_of_nonneg (by linarith) hdt'.le
  have hreach : y + (315 - y) / dt * dt = 315 := by
    rw [div_mul_cancel₀ _ hdt'.ne', add_sub_cancel]
  by_cases hvalid : 0 < (315 - y) / (dt : ℝ) ∧ (315 - y) / (dt : ℝ) ≤ 1
  · have hfirst : (315 - y) / (dt : ℝ) < 99 := hvalid.2.trans_lt (by norm_num)
    norm_num [verticalBall, midPaddle, wallOnly, hup.not_gt, hdown.not_gt,
      hfloor.not_gt, hvalid.1, hvalid.2, hfirst, hreach]
  · norm_num [verticalBall, midPaddle, wallOnly, hup.not_gt, hdown.not_gt,
      hfloor.not_gt, hvalid]

theorem collide_fall {passed : ℝ} {dt : Int} (hdt : 0 < dt) (hshort : dt < 125)
    (scored : Option Int) :
    collide fieldWall (midPaddle 475) (midPaddle 5) dt ⟨verticalBall 315 (-1), passed, scored⟩ =
      wallOnly ⟨99, ⟨0, 0⟩, ⟨0, 0⟩⟩ := by
  have hdt' : (0 : ℝ) < dt := by exact_mod_cast hdt
  have hshort' : (dt : ℝ) < 125 := by exact_mod_cast hshort
  have hfar (d : ℝ) (hd : 125 ≤ d) : ¬ d / dt ≤ 1 := by
    rw [div_le_one hdt']
    linarith
  have hbehind : ¬ (10 : ℝ) / dt < 0 := not_lt.mpr (by positivity)
  norm_num [verticalBall, midPaddle, wallOnly, hbehind, div_neg, neg_div,
    hfar 125 (by norm_num), hfar 175 (by norm_num), hfar 310 (by norm_num)]

theorem bounce_vertical :
    ballBounceOnCollision { verticalBall 0 1 with pos := ⟨240, 315⟩ } ⟨0, -1⟩ =
      verticalBall 315 (-1) := by
  have hfast : 0.63 < speedOf (⟨0, 1⟩ : Vector ℝ) := by
    unfold speedOf
    norm_num
  unfold verticalBall
  rw [ballBounceOnCollision_of_fast _ _ hfast]
  simp [reflectOrthogonal]

theorem advanceBody_rise_bounce {y : ℝ} {dt : Int} (hy : 185 ≤ y) (hreach : 0 < 315 - y)
    (hin : 315 - y ≤ dt) :
    advanceBody fieldWall (midPaddle 475) (midPaddle 5) dt (advanceStart (verticalBall y 1)) =
      .inl ⟨verticalBall 315 (-1), (315 - y) / dt, some (-1)⟩ := by
  have hdt' : (0 : ℝ) < dt := hreach.trans_le hin
  have hvalid : isValidToi ((315 - y) / (dt : ℝ)) = true :=
    isValidToi_iff.mpr ⟨div_pos hreach hdt', (div_le_one hdt').mpr hin⟩
  have hcollide :
      collide fieldWall (midPaddle 475) (midPaddle 5) dt ⟨verticalBall y 1, 0, none⟩ = _ :=
    collide_rise hy (by exact_mod_cast hdt' : 0 < dt) none
  rw [if_pos hvalid] at hcollide
  unfold advanceBody advanceStart
  rw [if_pos hdt', hcollide]
  dsimp only
  rw [wallOnly_first_of_valid hvalid, if_neg (not_not.mpr rfl)]
  refine (if_neg (div_pos hreach hdt').ne').trans ?_
  rw [zero_add, ← bounce_vertical]
  rfl

theorem rise_first {y : ℝ} {dt : Int} (hy : 185 ≤ y) (hdt : 0 < dt) (hfar : dt < 315 - y) :
    (collide fieldWall (midPaddle 475) (midPaddle 5) dt
      (advanceStart (verticalBall y 1))).first.1 = false := by
  have hdt' : (0 : ℝ) < dt := by exact_mod_cast hdt
  have hvalid : isValidToi ((315 - y) / (dt : ℝ)) ≠ true := by
    intro h
    have hle := (isValidToi_iff.mp h).2
    rw [div_le_one hdt'] at hle
    linarith
  unfold advanceStart
  rw [collide_rise hy hdt, if_neg hvalid]
  exact wallOnly_first_of_not_valid (by norm_num)

theorem advanceBody_rise_free {y : ℝ} {dt : Int} (hy : 185 ≤ y) (hdt : 0 < dt)
    (hfar : dt < 315 - y) :
    advanceBody fieldWall (midPaddle 475) (midPaddle 5) dt (advanceStart (verticalBall y 1)) =
      .inr ⟨some (verticalBall (y + dt) 1), some (-1)⟩ := by
  have hstart : (advanceStart (verticalBall y 1)).passedTime < dt := by
    change (0 : ℝ) < dt
    exact_mod_cast hdt
  unfold advanceBody
  rw [if_pos hstart]
  dsimp only
  rw [rise_first hy hdt hfar, if_pos Bool.false_ne_true]
  simp [advanceStart, verticalBall]

theorem fall_first {passed : ℝ} {dt : Int} (hdt : 0 < dt) (hshort : dt < 125)
    (scored : Option Int) :
    (collide fieldWall (midPaddle 475) (midPaddle 5) dt
      ⟨verticalBall 315 (-1), passed, scored⟩).first.1 = false := by
  rw [collide_fall hdt hshort]
  exact wallOnly_first_of_not_valid (by norm_num)

theorem runsOneAtATime_rise {y : ℝ} {dt : Int} (hy : 185 ≤ y) (hlow : 0 < 315 - y)
    (hdt : 0 < dt) (hshort : dt < 125) :
    RunsOneAtATime fieldWall (midPaddle 475) (midPaddle 5) dt (verticalBall y 1) := by
  have hstart : OneAtATime (collide fieldWall (midPaddle 475) (midPaddle 5) dt
      (advanceStart (verticalBall y 1))) := by
    unfold advanceStart
    rw [collide_rise hy hdt]
    exact wallOnly_oneAtATime _
  intro s hs
  rcases le_or_gt (315 - y) (dt : ℝ) with hin | hfar
  · rcases hs.eq_or_of_inl (advanceBody_rise_bounce hy hlow hin) with rfl | hs
    · exact hstart
    · have hstop : ∃ r, advanceBody fieldWall (midPaddle 475) (midPaddle 5) dt
          ⟨verticalBall 315 (-1), (315 - y) / dt, some (-1)⟩ = .inr r := by
        by_cases hpassed : (315 - y) / (dt : ℝ) < dt
        · exact ⟨_, (if_pos hpassed).trans (if_pos (by rw [fall_first hdt hshort]; simp))⟩
        · exact ⟨_, if_neg hpassed⟩
      obtain ⟨r, hr⟩ := hstop
      rw [hs.eq_of_inr hr, collide_fall hdt hshort]
      exact wallOnly_oneAtATime _
  · rw [hs.eq_of_inr (advanceBody_rise_free hy hdt hfar)]
    exact hstart

theorem ballAdvance_vertical {y : ℝ} {dt : Int} (hy : 185 ≤ y) (hreach : 0 < 315 - y)
    (hin : 315 - y ≤ dt) (hdt : 1 < dt) (hshort : dt < 125) :
    ballAdvance 2 fieldWall (midPaddle 475) (midPaddle 5) (verticalBall y 1) dt =
      some ⟨some (verticalBall (315 - (dt - 1)) (-1)), some (-1)⟩ := by
  have hdt' : (1 : ℝ) < dt := by exact_mod_cast hdt
  have hle : (315 - y) / (dt : ℝ) ≤ 1 := (div_le_one (by linarith)).mpr hin
  have hfall := ballAdvance_of_one_bounce (advanceBody_rise_bounce hy hreach hin)
    (hle.trans_lt hdt') (fall_first (by omega) hshort _)
  rw [hfall]
  simp [verticalBall, sub_eq_add_neg]

/-- Two milliseconds before the top wall: one tick of four milliseconds ends lower than a
tick of one and a tick of three. -/
theorem tick_splitting_bounce :
    QuietSplit fieldWall (midPaddle 475) (midPaddle 5) (verticalBall 313 1) 1 3 ∧
      ¬ TickSplits fieldWall (midPaddle 475) (midPaddle 5) (verticalBall 313 1) 1 3 := by
  have hshort : ballAdvance 1 fieldWall (midPaddle 475) (midPaddle 5) (verticalBall 313 1) 1 =
      some ⟨some (verticalBall 314 1), some (-1)⟩ := by
    unfold ballAdvance
    rw [Lib.Loop.run_succ_inr (advanceBody_rise_free (by norm_num) (by norm_num) (by norm_num))]
    norm_num
  have hclear (y : ℝ) (hlo : 200 < y) (hhi : y < 315) :
      TouchesNothing fieldWall (midPaddle 475) (midPaddle 5) (verticalBall y 1) := by
    refine ⟨?_, Or.inl ?_, Or.inr (Or.inl ?_)⟩
    · norm_num [StrictlyInside, verticalBall]
      exact ⟨by linarith, by linarith⟩
    · norm_num [verticalBall, midPaddle]
    · norm_num [verticalBall, midPaddle]
  have hruns (y : ℝ) (dt : Int) (hlo : 200 < y) (hhi : y < 315) (hdt : 0 < dt) (h125 : dt < 125) :
      RunsOneAtATime fieldWall (midPaddle 475) (midPaddle 5) dt (verticalBall y 1) :=
    runsOneAtATime_rise (by linarith) (by linarith) hdt h125
  constructor
  · refine ⟨by norm_num, ⟨rfl, rfl⟩, hclear 313 (by norm_num) (by norm_num),
      hruns 313 4 (by norm_num) (by norm_num) (by norm_num) (by norm_num),
      hruns 313 1 (by norm_num) (by norm_num) (by norm_num) (by norm_num), ?_⟩
    intro fuel r upd hr hupd
    have heq := Evals.unique ⟨fuel, hr⟩ ⟨1, hshort⟩
    subst heq
    cases hupd
    exact ⟨hclear 314 (by norm_num) (by norm_num),
      hruns 314 3 (by norm_num) (by norm_num) (by norm_num) (by norm_num)⟩
  · rintro ⟨fuel, r, hlong, htwice⟩
    have h4 : ballAdvance 2 fieldWall (midPaddle 475) (midPaddle 5) (verticalBall 313 1) 4 = _ :=
      ballAdvance_vertical (by norm_num) (by norm_num) (by norm_num) (by norm_num) (by norm_num)
    have h3 : ballAdvance 2 fieldWall (midPaddle 475) (midPaddle 5) (verticalBall 314 1) 3 = _ :=
      ballAdvance_vertical (by norm_num) (by norm_num) (by norm_num) (by norm_num) (by norm_num)
    have hr4 := Evals.unique ⟨fuel, hlong⟩ ⟨2, h4⟩
    unfold ballAdvanceTwice at htwice
    rw [Option.bind_eq_bind, Option.bind_eq_some_iff] at htwice
    obtain ⟨first, hfirst, hsecond⟩ := htwice
    have hr1 := Evals.unique ⟨fuel, hfirst⟩ ⟨1, hshort⟩
    subst hr1
    have hr3 := Evals.unique ⟨fuel, hsecond⟩ ⟨2, h3⟩
    rw [hr4] at hr3
    norm_num [verticalBall] at hr3

theorem tick_splitting_midField :
    TickSplits fieldWall (midPaddle 475) (midPaddle 5) (verticalBall 200 1) 1 2 := by
  have hquiet (y : ℝ) (dt : Int) (hy : 185 ≤ y) (hdt : 0 < dt) (hfar : dt < 315 - y) :
      NoBounce fieldWall (midPaddle 475) (midPaddle 5) dt (verticalBall y 1) := by
    intro hfirst
    rw [rise_first hy hdt hfar] at hfirst
    cases hfirst
  have hmoved : linearMove (verticalBall 200 1) 1 = verticalBall 201 1 := by
    norm_num [verticalBall]
  refine tick_splitting (by norm_num) (by norm_num) ?_ (by norm_num [verticalBall])
    (hquiet 200 3 (by norm_num) (by norm_num) (by norm_num))
    (hquiet 200 1 (by norm_num) (by norm_num) (by norm_num)) ?_
  · norm_num [StrictlyInside, verticalBall]
  · intro _
    rw [hmoved]
    exact hquiet 201 2 (by norm_num) (by norm_num) (by norm_num)

end Vertical

end CPong
