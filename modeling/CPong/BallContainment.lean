import CPong.BallTermination

/-!
# Where the ball can get in one tick

A ball that is inside the field is kept there by the collision tests, unless it touches a
wall or a goal line that it moves into, or the test of the goals, over what is left of the
tick, lets a later bounce on a paddle or a wall come before a goal line.
-/

namespace CPong

set_option autoImplicit false

open Lib (trunc)
open Lib.Loop (Evals Head)

section Axis
variable {lo hi p v c t t₀ τ T : ℝ}

/-- `c` is the one of the two bounds that the velocity points to. -/
noncomputable def boundAhead (lo hi v : ℝ) : ℝ := if v > 0 then hi else lo

theorem leaves_bounds (hv : v ≠ 0) (hreach : p + v * t₀ = boundAhead lo hi v) (ht : t₀ < t) :
    ¬ (lo ≤ p + v * t ∧ p + v * t ≤ hi) := by
  rintro ⟨hlo, hhi⟩
  unfold boundAhead at hreach
  split at hreach
  · rename_i hpos
    have hlt := mul_lt_mul_of_pos_left ht hpos
    linarith
  · rename_i hpos
    have hneg : v < 0 := lt_of_le_of_ne (not_lt.mp hpos) hv
    have hlt := mul_lt_mul_of_neg_left ht hneg
    linarith

/-- A ball that does not touch the bound ahead stays within the bounds up to the time at
which the test of that bound finds it. -/
theorem stays_within (hin : lo ≤ p ∧ p ≤ hi) (hT : 0 < T)
    (hne : ¬ (v ≠ 0 ∧ p = boundAhead lo hi v)) (hτ : 0 < τ ∧ τ ≤ 1)
    (hfirst : isValidToi ((boundAhead lo hi v - p) / (v * T)) = true →
      τ ≤ (boundAhead lo hi v - p) / (v * T))
    (ht : 0 ≤ t) (htτ : t ≤ τ * T) : lo ≤ p + v * t ∧ p + v * t ≤ hi := by
  obtain ⟨hlo, hhi⟩ := hin
  by_cases hv : v = 0
  · subst hv
    simpa using ⟨hlo, hhi⟩
  · have hnot : p ≠ boundAhead lo hi v := fun heq => hne ⟨hv, heq⟩
    rcases lt_or_gt_of_ne hv with hneg | hpos
    · have hc : boundAhead lo hi v = lo := if_neg (not_lt.mpr hneg.le)
      rw [hc] at hnot hfirst
      have hahead : 0 < (lo - p) * v :=
        mul_pos_of_neg_of_neg (sub_neg.mpr (lt_of_le_of_ne hlo hnot.symm)) hneg
      have hpast := not_past_line hT hahead hτ hfirst
      have hbound : lo ≤ p + v * (τ * T) := by
        by_contra hlt
        exact absurd (mul_neg_of_pos_of_neg (sub_pos.mpr (not_le.mp hlt)) hneg) (not_lt.mpr hpast)
      have hway := mul_le_mul_of_nonpos_left htτ hneg.le
      have hback := mul_nonpos_of_nonpos_of_nonneg hneg.le ht
      exact ⟨by linarith, by linarith⟩
    · have hc : boundAhead lo hi v = hi := if_pos hpos
      rw [hc] at hnot hfirst
      have hahead : 0 < (hi - p) * v := mul_pos (sub_pos.mpr (lt_of_le_of_ne hhi hnot)) hpos
      have hpast := not_past_line hT hahead hτ hfirst
      have hbound : p + v * (τ * T) ≤ hi := by
        by_contra hlt
        exact absurd (mul_neg_of_neg_of_pos (sub_neg.mpr (not_le.mp hlt)) hpos) (not_lt.mpr hpast)
      have hway := mul_le_mul_of_nonneg_left htτ hpos.le
      have hforth := mul_nonneg hpos.le ht
      exact ⟨by linarith, by linarith⟩

end Axis

section Field
variable (wall : Wall) (ball : GameObj ℝ)

def BetweenWalls (y : ℝ) : Prop :=
  wall.down + ball.size.y / 2 ≤ y ∧ y ≤ wall.up - ball.size.y / 2

def BetweenGoals (x : ℝ) : Prop :=
  wall.left + ball.size.x / 2 ≤ x ∧ x ≤ wall.right - ball.size.x / 2

def Inside : Prop := BetweenGoals wall ball ball.pos.x ∧ BetweenWalls wall ball ball.pos.y

def StrictlyInside : Prop :=
  (wall.left + ball.size.x / 2 < ball.pos.x ∧ ball.pos.x < wall.right - ball.size.x / 2) ∧
    wall.down + ball.size.y / 2 < ball.pos.y ∧ ball.pos.y < wall.up - ball.size.y / 2

noncomputable def wallAhead : Int := if ball.velocity.y > 0 then wall.up else wall.down

noncomputable def goalAhead : Int := if ball.velocity.x > 0 then wall.right else wall.left

/-- The ball touches the wall that it moves into. The test of that wall gives the time `0`,
which does not count as a collision. -/
def PressesWall : Prop :=
  ball.velocity.y ≠ 0 ∧ ball.pos.y = contactY ball (wallAhead wall ball)

def PressesGoal : Prop :=
  ball.velocity.x ≠ 0 ∧ ball.pos.x = contactX ball (goalAhead wall ball)

theorem contactY_wallAhead : contactY ball (wallAhead wall ball) =
    boundAhead (wall.down + ball.size.y / 2) (wall.up - ball.size.y / 2) ball.velocity.y := by
  unfold contactY wallAhead dirOf boundAhead
  split
  · push_cast
    ring
  · push_cast
    ring

theorem contactX_goalAhead : contactX ball (goalAhead wall ball) =
    boundAhead (wall.left + ball.size.x / 2) (wall.right - ball.size.x / 2) ball.velocity.x := by
  unfold contactX goalAhead dirOf boundAhead
  split
  · push_cast
    ring
  · push_cast
    ring

theorem wallAhead_mem : wallAhead wall ball = wall.up ∨ wallAhead wall ball = wall.down := by
  unfold wallAhead
  split
  · exact Or.inl rfl
  · exact Or.inr rfl

theorem goalAhead_mem : goalAhead wall ball = wall.left ∨ goalAhead wall ball = wall.right := by
  unfold goalAhead
  split
  · exact Or.inr rfl
  · exact Or.inl rfl

variable {wall ball} {deltaTime : Int} {t τ : ℝ}

theorem betweenWalls_of_first (hin : BetweenWalls wall ball ball.pos.y) (hdt : 0 < deltaTime)
    (hpress : ¬ PressesWall wall ball) (hτ : 0 < τ ∧ τ ≤ 1)
    (hfirst : isValidToi (ballYCollide ball (wallAhead wall ball) deltaTime .zero).2.toi = true →
      τ ≤ (ballYCollide ball (wallAhead wall ball) deltaTime .zero).2.toi)
    (ht : 0 ≤ t) (htτ : t ≤ τ * deltaTime) :
    BetweenWalls wall ball (ball.pos.y + ball.velocity.y * t) := by
  unfold PressesWall at hpress
  rw [ballYCollide_toi] at hfirst
  rw [contactY_wallAhead] at hpress hfirst
  exact stays_within hin (by exact_mod_cast hdt) hpress hτ hfirst ht htτ

theorem betweenGoals_of_first (hin : BetweenGoals wall ball ball.pos.x) (hdt : 0 < deltaTime)
    (hpress : ¬ PressesGoal wall ball) (hτ : 0 < τ ∧ τ ≤ 1)
    (hfirst : isValidToi (ballXCollide ball (goalAhead wall ball) deltaTime .zero).2.toi = true →
      τ ≤ (ballXCollide ball (goalAhead wall ball) deltaTime .zero).2.toi)
    (ht : 0 ≤ t) (htτ : t ≤ τ * deltaTime) :
    BetweenGoals wall ball (ball.pos.x + ball.velocity.x * t) := by
  unfold PressesGoal at hpress
  rw [ballXCollide_toi] at hfirst
  rw [contactX_goalAhead] at hpress hfirst
  exact stays_within hin (by exact_mod_cast hdt) hpress hτ hfirst ht htτ

theorem PressesWall.leaves (h : PressesWall wall ball) (ht : 0 < t) :
    ¬ BetweenWalls wall ball (ball.pos.y + ball.velocity.y * t) := by
  obtain ⟨hv, hp⟩ := h
  rw [contactY_wallAhead] at hp
  exact leaves_bounds hv (by rw [mul_zero, add_zero]; exact hp) ht

theorem PressesGoal.leaves (h : PressesGoal wall ball) (ht : 0 < t) :
    ¬ BetweenGoals wall ball (ball.pos.x + ball.velocity.x * t) := by
  obtain ⟨hv, hp⟩ := h
  rw [contactX_goalAhead] at hp
  exact leaves_bounds hv (by rw [mul_zero, add_zero]; exact hp) ht

end Field

section Tick
variable (wall : Wall) (paddle1 paddle2 : GameObj ℝ) (deltaTime : Int)

/-- The goal line ahead, tested over the whole tick as the paddles and the walls are, comes
before the collision `c`. -/
def GoalBefore (ball : GameObj ℝ) (c : CollInfo ℝ) : Prop :=
  isValidToi (ballXCollide ball (goalAhead wall ball) deltaTime .zero).2.toi = true ∧
    (ballXCollide ball (goalAhead wall ball) deltaTime .zero).2.toi < c.toi

/-- What keeps the ball inside in a trip that begins with time left. -/
def KeepsIn (s : AdvanceState ℝ) : Prop :=
  let collisions := collide wall paddle1 paddle2 deltaTime s
  if ¬ collisions.first.1 then
    trunc (deltaTime - s.passedTime) = 0 ∨ ¬ PressesWall wall s.ball ∧ ¬ PressesGoal wall s.ball
  else if collisions.first.2.toi = collisions.score.toi then ¬ PressesWall wall s.ball
  else ¬ PressesWall wall s.ball ∧ ¬ PressesGoal wall s.ball ∧
    ¬ GoalBefore wall deltaTime s.ball collisions.first.2

def Scores (s : AdvanceState ℝ) : Prop :=
  s.passedTime < deltaTime ∧ (collide wall paddle1 paddle2 deltaTime s).first.1 = true ∧
    (collide wall paddle1 paddle2 deltaTime s).first.2.toi =
      (collide wall paddle1 paddle2 deltaTime s).score.toi

/-- `ball_advance` reports a score or returns a ball that is inside, and on the way the ball
is inside at every bounce and between the walls when it comes to a goal. -/
structure Contained (ball : GameObj ℝ) : Prop where
  heads : ∀ s, Head (advanceBody wall paddle1 paddle2 deltaTime) (advanceStart ball) s →
    Inside wall s.ball
  goals : ∀ s, Head (advanceBody wall paddle1 paddle2 deltaTime) (advanceStart ball) s →
    Scores wall paddle1 paddle2 deltaTime s →
      BetweenWalls wall s.ball (collide wall paddle1 paddle2 deltaTime s).score.pos.y
  result : ∃ fuel r, ballAdvance fuel wall paddle1 paddle2 ball deltaTime = some r ∧
    (r.scoredIndex = some 0 ∨ r.scoredIndex = some 1 ∨
      ∃ upd, r.ballUpd = some upd ∧ Inside wall upd)

variable {wall paddle1 paddle2 deltaTime} {s : AdvanceState ℝ}

theorem rest_le (h0 : 0 ≤ s.passedTime) (htime : s.passedTime < deltaTime) :
    0 ≤ trunc (deltaTime - s.passedTime) ∧
      (trunc (deltaTime - s.passedTime) : ℝ) ≤ deltaTime := by
  have hrest : 0 ≤ (deltaTime : ℝ) - s.passedTime := by linarith
  refine ⟨Lib.trunc_nonneg hrest, ?_⟩
  have hle := Lib.trunc_le hrest
  linarith

theorem first_le_wallAhead
    (h : isValidToi (ballYCollide s.ball (wallAhead wall s.ball) deltaTime .zero).2.toi = true) :
    (collide wall paddle1 paddle2 deltaTime s).first.2.toi ≤
      (ballYCollide s.ball (wallAhead wall s.ball) deltaTime .zero).2.toi :=
  (collide_first_le_wall (wallAhead_mem wall s.ball) h).2

/-- Nothing hit: the ball is inside at the end of the tick exactly when it may move. -/
theorem free_inside_iff (h0 : 0 ≤ s.passedTime) (htime : s.passedTime < deltaTime)
    (hin : Inside wall s.ball)
    (hnone : (collide wall paddle1 paddle2 deltaTime s).first.1 = false) :
    Inside wall (linearMove s.ball (trunc (deltaTime - s.passedTime))) ↔
      trunc (deltaTime - s.passedTime) = 0 ∨
        ¬ PressesWall wall s.ball ∧ ¬ PressesGoal wall s.ball := by
  obtain ⟨hr0, hrle⟩ := rest_le h0 htime
  constructor
  · intro hmoved
    by_cases hr : trunc (deltaTime - s.passedTime) = 0
    · exact Or.inl hr
    · have hpos : (0 : ℝ) < trunc (deltaTime - s.passedTime) := by
        exact_mod_cast lt_of_le_of_ne hr0 (Ne.symm hr)
      exact Or.inr ⟨fun h => h.leaves hpos hmoved.2, fun h => h.leaves hpos hmoved.1⟩
  · rintro (hr | ⟨hwall, hgoal⟩)
    · rw [hr]
      simpa [Inside, BetweenGoals, BetweenWalls] using hin
    · have hdt : 0 < deltaTime := by exact_mod_cast h0.trans_lt htime
      have hrnn : (0 : ℝ) ≤ trunc (deltaTime - s.passedTime) := by exact_mod_cast hr0
      constructor
      · rcases hr0.eq_or_lt with hr | hr
        · rw [← hr]
          simpa [BetweenGoals] using hin.1
        · refine betweenGoals_of_first hin.1 hr hgoal ⟨one_pos, le_rfl⟩ ?_ hrnn (by rw [one_mul])
          intro hvalid
          rw [collide_first_of_goal (goalAhead_mem wall s.ball) hvalid] at hnone
          cases hnone
      · refine betweenWalls_of_first hin.2 hdt hwall ⟨one_pos, le_rfl⟩ ?_ hrnn (by rwa [one_mul])
        intro hvalid
        rw [(collide_first_le_wall (wallAhead_mem wall s.ball) hvalid).1] at hnone
        cases hnone

theorem score_between_iff (h0 : 0 ≤ s.passedTime) (hin : Inside wall s.ball)
    (hscore : Scores wall paddle1 paddle2 deltaTime s) :
    BetweenWalls wall s.ball (collide wall paddle1 paddle2 deltaTime s).score.pos.y ↔
      ¬ PressesWall wall s.ball := by
  obtain ⟨htime, hfirst, heq⟩ := hscore
  obtain ⟨hr0, hrle⟩ := rest_le h0 htime
  obtain ⟨-, hvalid⟩ := Collisions.first_hit hfirst
  rw [heq] at hvalid
  have hhit := ballScoreCollide_hit hvalid
  have hr : (0 : ℝ) < trunc (deltaTime - s.passedTime) := by
    exact_mod_cast lt_of_le_of_ne hr0 hhit.time.symm
  have hpos : (collide wall paddle1 paddle2 deltaTime s).score.pos.y = s.ball.pos.y +
      s.ball.velocity.y * ((collide wall paddle1 paddle2 deltaTime s).score.toi *
        trunc (deltaTime - s.passedTime)) := congrArg Vector.y hhit.pos
  have htoi := isValidToi_iff.mp hvalid
  have hway := mul_pos htoi.1 hr
  rw [hpos]
  constructor
  · intro hbetween hpress
    exact hpress.leaves hway hbetween
  · intro hpress
    have hdt : 0 < deltaTime := by exact_mod_cast h0.trans_lt htime
    refine betweenWalls_of_first hin.2 hdt hpress htoi ?_ hway.le ?_
    · rw [← heq]
      exact first_le_wallAhead
    · exact mul_le_mul_of_nonneg_left hrle htoi.1.le

/-- A bounce: it happens inside exactly when the ball leaves the lines ahead alone and the
goal line ahead is not before it. -/
theorem bounce_inside_iff (h0 : 0 ≤ s.passedTime) (htime : s.passedTime < deltaTime)
    (hin : Inside wall s.ball) {c : CollInfo ℝ} {xs ys : List Int}
    (hfirst : (collide wall paddle1 paddle2 deltaTime s).first = (true, c))
    (hhit : Hit s.ball deltaTime xs ys c) :
    Inside wall (ballBounceOnCollision { s.ball with pos := c.pos } c.normal) ↔
      ¬ PressesWall wall s.ball ∧ ¬ PressesGoal wall s.ball ∧
        ¬ GoalBefore wall deltaTime s.ball c := by
  have hdt' : (0 : ℝ) < deltaTime := h0.trans_lt htime
  have hdt : 0 < deltaTime := by exact_mod_cast hdt'
  have hway := mul_pos hhit.toi.1 hdt'
  have hinside : Inside wall (ballBounceOnCollision { s.ball with pos := c.pos } c.normal) ↔
      BetweenGoals wall s.ball (s.ball.pos.x + s.ball.velocity.x * (c.toi * deltaTime)) ∧
        BetweenWalls wall s.ball (s.ball.pos.y + s.ball.velocity.y * (c.toi * deltaTime)) := by
    simp [Inside, BetweenGoals, BetweenWalls, hhit.pos]
  rw [hinside]
  constructor
  · rintro ⟨hgoals, hwalls⟩
    refine ⟨fun h => h.leaves hway hwalls, fun h => h.leaves hway hgoals, ?_⟩
    rintro ⟨hvalid, hlt⟩
    have hgoal := ballXCollide_hit hvalid
    have hreach := hgoal.reach
    rw [hgoal.pos, contactX_goalAhead] at hreach
    exact leaves_bounds hgoal.moving hreach (mul_lt_mul_of_pos_right hlt hdt') hgoals
  · rintro ⟨hwall, hgoal, hbefore⟩
    constructor
    · refine betweenGoals_of_first hin.1 hdt hgoal hhit.toi ?_ hway.le le_rfl
      intro hvalid
      exact not_lt.mp fun hlt => hbefore ⟨hvalid, hlt⟩
    · refine betweenWalls_of_first hin.2 hdt hwall hhit.toi ?_ hway.le le_rfl
      intro hvalid
      have hle : (collide wall paddle1 paddle2 deltaTime s).first.2.toi ≤ _ :=
        first_le_wallAhead hvalid
      rwa [hfirst] at hle

theorem keepsIn_of_free (hnone : (collide wall paddle1 paddle2 deltaTime s).first.1 = false) :
    KeepsIn wall paddle1 paddle2 deltaTime s ↔ trunc (deltaTime - s.passedTime) = 0 ∨
      ¬ PressesWall wall s.ball ∧ ¬ PressesGoal wall s.ball := by
  unfold KeepsIn
  simp only [hnone, Bool.false_eq_true, not_false_eq_true, if_true]

theorem keepsIn_of_score (h : Scores wall paddle1 paddle2 deltaTime s) :
    KeepsIn wall paddle1 paddle2 deltaTime s ↔ ¬ PressesWall wall s.ball := by
  unfold KeepsIn
  simp only [h.2.1, h.2.2, not_true_eq_false, if_false, if_true]

theorem keepsIn_of_bounce {c : CollInfo ℝ}
    (hfirst : (collide wall paddle1 paddle2 deltaTime s).first = (true, c))
    (hne : c.toi ≠ (collide wall paddle1 paddle2 deltaTime s).score.toi) :
    KeepsIn wall paddle1 paddle2 deltaTime s ↔ ¬ PressesWall wall s.ball ∧
      ¬ PressesGoal wall s.ball ∧ ¬ GoalBefore wall deltaTime s.ball c := by
  unfold KeepsIn
  simp only [hfirst, hne, not_true_eq_false, if_false]

variable {ball : GameObj ℝ}

theorem StrictlyInside.inside (h : StrictlyInside wall ball) : Inside wall ball :=
  ⟨⟨h.1.1.le, h.1.2.le⟩, h.2.1.le, h.2.2.le⟩

theorem inside_next {t : AdvanceState ℝ} (h0 : 0 ≤ s.passedTime) (hin : Inside wall s.ball)
    (hkeeps : s.passedTime < deltaTime → KeepsIn wall paddle1 paddle2 deltaTime s)
    (hst : advanceBody wall paddle1 paddle2 deltaTime s = .inl t) :
    0 ≤ t.passedTime ∧ Inside wall t.ball := by
  have htrip := advanceBody_trip wall paddle1 paddle2 deltaTime s
  rw [hst] at htrip
  cases htrip with
  | bounce htime c hfirst hne hhit =>
    have hk := (keepsIn_of_bounce hfirst hne).mp (hkeeps htime)
    exact ⟨add_nonneg h0 hhit.toi.1.le, (bounce_inside_iff h0 htime hin hfirst hhit).mpr hk⟩

theorem head_passedTime_nonneg
    (h : Head (advanceBody wall paddle1 paddle2 deltaTime) (advanceStart ball) s) :
    0 ≤ s.passedTime := by
  refine Head.invariant (I := fun a => 0 ≤ a.passedTime) le_rfl ?_ h
  intro a b _ h0 hab
  have htrip := advanceBody_trip wall paddle1 paddle2 deltaTime a
  rw [hab] at htrip
  cases htrip with
  | bounce htime c hfirst hne hhit => exact add_nonneg h0 hhit.toi.1.le

theorem head_inside (hin : Inside wall ball)
    (hkeeps : ∀ s, Head (advanceBody wall paddle1 paddle2 deltaTime) (advanceStart ball) s →
      s.passedTime < deltaTime → KeepsIn wall paddle1 paddle2 deltaTime s)
    (hs : Head (advanceBody wall paddle1 paddle2 deltaTime) (advanceStart ball) s) :
    0 ≤ s.passedTime ∧ Inside wall s.ball := by
  refine Head.invariant (I := fun a => 0 ≤ a.passedTime ∧ Inside wall a.ball) ⟨le_rfl, hin⟩ ?_ hs
  intro a b ha hI hab
  exact inside_next hI.1 hI.2 (hkeeps a ha) hab

theorem ballAdvance_inside {fuel : Nat} {r : Advanced ℝ} (hin : Inside wall ball)
    (hkeeps : ∀ s, Head (advanceBody wall paddle1 paddle2 deltaTime) (advanceStart ball) s →
      s.passedTime < deltaTime → KeepsIn wall paddle1 paddle2 deltaTime s)
    (hrun : ballAdvance fuel wall paddle1 paddle2 ball deltaTime = some r) :
    r.scoredIndex = some 0 ∨ r.scoredIndex = some 1 ∨
      ∃ upd, r.ballUpd = some upd ∧ Inside wall upd := by
  obtain ⟨s, hs, hout⟩ := Lib.Loop.evals_iff.mp ⟨fuel, hrun⟩
  obtain ⟨h0, hins⟩ := head_inside hin hkeeps hs
  have htrip := advanceBody_trip wall paddle1 paddle2 deltaTime s
  rw [hout] at htrip
  cases htrip with
  | timeUp hover => exact Or.inr (Or.inr ⟨s.ball, rfl, hins⟩)
  | free htime hnone =>
    have hk := (keepsIn_of_free hnone).mp (hkeeps s hs htime)
    exact Or.inr (Or.inr ⟨_, rfl, (free_inside_iff h0 htime hins hnone).mpr hk⟩)
  | score _ i hi hfirst heq =>
    rcases hi with rfl | rfl
    · exact Or.inl rfl
    · exact Or.inr (Or.inl rfl)

/-- A tick contains a ball that starts inside exactly when every trip keeps it in. -/
theorem ball_containment (hin : StrictlyInside wall ball) :
    Contained wall paddle1 paddle2 deltaTime ball ↔
      ∀ s, Head (advanceBody wall paddle1 paddle2 deltaTime) (advanceStart ball) s →
        s.passedTime < deltaTime → KeepsIn wall paddle1 paddle2 deltaTime s := by
  constructor
  · intro hcont s hs htime
    have h0 := head_passedTime_nonneg hs
    have hins := hcont.heads s hs
    have htrip := advanceBody_trip wall paddle1 paddle2 deltaTime s
    generalize hout : advanceBody wall paddle1 paddle2 deltaTime s = out at htrip
    cases htrip with
    | timeUp hover => exact absurd htime hover
    | free _ hnone =>
      obtain ⟨fuel, r, hrun, hr⟩ := hcont.result
      have heq := Lib.Loop.Evals.unique ⟨fuel, hrun⟩ (Lib.Loop.evals_iff.mpr ⟨s, hs, hout⟩)
      subst heq
      simp only [Option.some.injEq, exists_eq_left'] at hr
      have hmoved := hr.resolve_left (by decide) |>.resolve_left (by decide)
      exact (keepsIn_of_free hnone).mpr ((free_inside_iff h0 htime hins hnone).mp hmoved)
    | score _ i hi hfirst heq =>
      have hscore : Scores wall paddle1 paddle2 deltaTime s := ⟨htime, hfirst, heq⟩
      have hbetween := hcont.goals s hs hscore
      exact (keepsIn_of_score hscore).mpr ((score_between_iff h0 hins hscore).mp hbetween)
    | bounce _ c hfirst hne hhit =>
      have hnext := hcont.heads _ (hs.next hout)
      exact (keepsIn_of_bounce hfirst hne).mpr
        ((bounce_inside_iff h0 htime hins hfirst hhit).mp hnext)
  · intro hkeeps
    refine ⟨fun s hs => (head_inside hin.inside hkeeps hs).2, ?_, ?_⟩
    · intro s hs hscore
      obtain ⟨h0, hins⟩ := head_inside hin.inside hkeeps hs
      have hk := (keepsIn_of_score hscore).mp (hkeeps s hs hscore.1)
      exact (score_between_iff h0 hins hscore).mpr hk
    · obtain ⟨r, fuel, hrun⟩ := ballAdvance_returns wall paddle1 paddle2 ball deltaTime
      exact ⟨fuel, r, hrun, ballAdvance_inside hin.inside hkeeps hrun⟩

end Tick

section Corner

def fieldWall : Wall := ⟨320, 0, 0, 480⟩

noncomputable def highPaddle : GameObj ℝ := ⟨1 / 2, ⟨475, 290⟩, ⟨0, 0⟩, ⟨10, 50⟩⟩

noncomputable def restPaddle : GameObj ℝ := ⟨1 / 2, ⟨5, 160⟩, ⟨0, 0⟩, ⟨10, 50⟩⟩

noncomputable def diagonalBall (x y : ℝ) : GameObj ℝ := ⟨1 / 20, ⟨x, y⟩, ⟨1, 1⟩, ⟨10, 10⟩⟩

theorem speedOf_diagonal {v : Vector ℝ} (h : v.x * v.x + v.y * v.y = 2) : 0.63 < speedOf v := by
  unfold speedOf
  rw [h]
  exact Real.lt_sqrt_of_sq_lt (by norm_num)

attribute [local simp] collide aabbCollide ballWallCollide ballScoreCollide ballXCollide_eq
  ballYCollide_eq contactX contactY dirOf isValidToi getFirstCollision keepEarlier
  aabbGetBoundaries linearInterpolate linearMove vectorAdd vectorMultiply CollInfo.zero
  Vector.zero fieldWall highPaddle restPaddle diagonalBall

theorem advanceBody_corner :
    advanceBody fieldWall highPaddle restPaddle 2 (advanceStart (diagonalBall 464 314)) =
      .inl ⟨⟨1 / 20, ⟨465, 315⟩, ⟨-1, 1⟩, ⟨10, 10⟩⟩, 1 / 2, some (-1)⟩ := by
  have hfast : 0.63 < speedOf (⟨1, 1⟩ : Vector ℝ) := speedOf_diagonal (by norm_num)
  have hcollide : collide fieldWall highPaddle restPaddle 2 (advanceStart (diagonalBall 464 314)) =
      ⟨⟨1 / 2, ⟨-1, 0⟩, ⟨465, 315⟩⟩, ⟨-1, ⟨0, 0⟩, ⟨0, 0⟩⟩, ⟨1 / 2, ⟨0, -1⟩, ⟨465, 315⟩⟩,
        ⟨11 / 2, ⟨0, 0⟩, ⟨0, 0⟩⟩, -1⟩ := by
    norm_num [advanceStart]
  have hbounce : ballBounceOnCollision
      (⟨1 / 20, ⟨465, 315⟩, ⟨1, 1⟩, ⟨10, 10⟩⟩ : GameObj ℝ) ⟨-1, 0⟩ =
      ⟨1 / 20, ⟨465, 315⟩, ⟨-1, 1⟩, ⟨10, 10⟩⟩ := by
    rw [ballBounceOnCollision_of_fast _ _ hfast]
    simp [reflectOrthogonal]
  unfold advanceBody
  rw [hcollide]
  norm_num [Collisions.first, advanceStart, hbounce]

theorem advanceBody_pastWall :
    advanceBody fieldWall highPaddle restPaddle 2
        ⟨⟨1 / 20, ⟨465, 315⟩, ⟨-1, 1⟩, ⟨10, 10⟩⟩, 1 / 2, some (-1)⟩ =
      .inr ⟨some ⟨1 / 20, ⟨464, 316⟩, ⟨-1, 1⟩, ⟨10, 10⟩⟩, some (-1)⟩ := by
  have hrest : trunc (3 / 2 : ℝ) = 1 := by
    have hsub := Lib.trunc_intCast_sub (n := 2) (x := (1 / 2 : ℝ)) (by norm_num) (by norm_num)
      (by norm_num)
    norm_num at hsub
    exact hsub
  have hcollide : collide fieldWall highPaddle restPaddle 2
      ⟨⟨1 / 20, ⟨465, 315⟩, ⟨-1, 1⟩, ⟨10, 10⟩⟩, 1 / 2, some (-1)⟩ =
      ⟨⟨-1, ⟨0, 0⟩, ⟨0, 0⟩⟩, ⟨-1, ⟨0, 0⟩, ⟨0, 0⟩⟩, ⟨99, ⟨0, 0⟩, ⟨0, 0⟩⟩,
        ⟨-20, ⟨0, 0⟩, ⟨0, 0⟩⟩, -1⟩ := by
    norm_num [hrest]
  unfold advanceBody
  rw [hcollide]
  norm_num [Collisions.first, hrest]

theorem ballAdvance_corner :
    ballAdvance 2 fieldWall highPaddle restPaddle (diagonalBall 464 314) 2 =
      some ⟨some ⟨1 / 20, ⟨464, 316⟩, ⟨-1, 1⟩, ⟨10, 10⟩⟩, some (-1)⟩ := by
  unfold ballAdvance
  rw [Lib.Loop.run_succ_inl advanceBody_corner, Lib.Loop.run_succ_inr advanceBody_pastWall]

/-- A ball that comes to a paddle and to the top wall at one time bounces on the paddle and
goes through the wall. -/
theorem ball_containment_paddleAtWall :
    StrictlyInside fieldWall (diagonalBall 464 314) ∧
      ballAdvance 2 fieldWall highPaddle restPaddle (diagonalBall 464 314) 2 =
        some ⟨some ⟨1 / 20, ⟨464, 316⟩, ⟨-1, 1⟩, ⟨10, 10⟩⟩, some (-1)⟩ ∧
      ¬ Contained fieldWall highPaddle restPaddle 2 (diagonalBall 464 314) := by
  refine ⟨by norm_num [StrictlyInside, fieldWall, diagonalBall], ballAdvance_corner, ?_⟩
  intro hcont
  obtain ⟨fuel, r, hr, hres⟩ := hcont.result
  have heq := Evals.unique ⟨fuel, hr⟩ ⟨2, ballAdvance_corner⟩
  subst heq
  norm_num [Inside, BetweenGoals, BetweenWalls, fieldWall] at hres

theorem ball_containment_midField :
    StrictlyInside fieldWall (diagonalBall 240 160) ∧
      Contained fieldWall highPaddle restPaddle 2 (diagonalBall 240 160) := by
  have hin : StrictlyInside fieldWall (diagonalBall 240 160) := by
    norm_num [StrictlyInside, fieldWall, diagonalBall]
  refine ⟨hin, (ball_containment hin).mpr ?_⟩
  have hnone : (collide fieldWall highPaddle restPaddle 2
      (advanceStart (diagonalBall 240 160))).first.1 = false := by
    norm_num [Collisions.first, advanceStart]
  intro s hs htime
  have hstop : ∃ r, advanceBody fieldWall highPaddle restPaddle 2
      (advanceStart (diagonalBall 240 160)) = .inr r := by
    unfold advanceBody
    rw [if_pos (by norm_num [advanceStart])]
    exact ⟨_, if_pos (by rw [hnone]; decide)⟩
  obtain ⟨r, hr⟩ := hstop
  rw [hs.eq_of_inr hr]
  refine (keepsIn_of_free hnone).mpr (Or.inr ?_)
  norm_num [PressesWall, PressesGoal, wallAhead, goalAhead, contactX, contactY, dirOf,
    advanceStart, diagonalBall, fieldWall]

end Corner

end CPong
