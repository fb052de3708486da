import CPong.BallTermination
import CPong.Mirror

/-!
# Left and right

A tick of the mirrored game, with the paddles swapped, is the mirrored tick.
-/

namespace CPong

set_option autoImplicit false

open Lib (trunc)

section Trips
variable {F : Type} [Field F] [LinearOrder F] [FloorRing F] [Libm F] {wall : Wall}
  {paddle1 paddle2 : GameObj F} {deltaTime : Int} {s t : AdvanceState F}

def AdvanceState.mirror (wall : Wall) (s : AdvanceState F) : AdvanceState F :=
  ⟨s.ball.mirror wall, s.passedTime, s.scoredIndex.map swapIndex⟩

def Advanced.mirror (wall : Wall) (r : Advanced F) : Advanced F :=
  ⟨r.ballUpd.map (GameObj.mirror wall), r.scoredIndex.map swapIndex⟩

omit [FloorRing F] in
theorem ballBounceOnCollision_mirror (wall : Wall) (ball : GameObj F) (normal : Vector F) :
    ballBounceOnCollision (ball.mirror wall) normal.mirrorDirection =
      (ballBounceOnCollision ball normal).mirror wall := by
  have hreflect : reflectOrthogonal (ball.mirror wall).velocity normal.mirrorDirection =
      (reflectOrthogonal ball.velocity normal).mirrorDirection := by
    unfold reflectOrthogonal
    change (if -normal.x = 0 then _ else _) = _
    by_cases hx : normal.x = 0
    · rw [if_pos (neg_eq_zero.mpr hx), if_pos hx]
      rfl
    · rw [if_neg (neg_ne_zero.mpr hx), if_neg hx]
      rfl
  unfold ballBounceOnCollision
  simp only [hreflect]
  generalize reflectOrthogonal ball.velocity normal = v
  have hhyp : Libm.sqrtf (v.mirrorDirection.y * v.mirrorDirection.y +
      v.mirrorDirection.x * v.mirrorDirection.x) = Libm.sqrtf (v.y * v.y + v.x * v.x) := by
    change Libm.sqrtf (v.y * v.y + -v.x * -v.x) = _
    rw [neg_mul_neg]
  rw [hhyp]
  split
  · rfl
  · apply GameObj.ext
    · rfl
    · rfl
    · ext
      · change -v.x + 0.01 * (-v.x / _) = -(v.x + 0.01 * (v.x / _))
        ring
      · rfl
    · rfl

variable [IsStrictOrderedRing F]

omit [Libm F] in
theorem collide_mirror (h₁ : IntegerFaces wall paddle1) (h₂ : IntegerFaces wall paddle2)
    (hfacing : Facing wall s.ball) (hsize : 0 ≤ s.ball.size.x)
    (hgap : Beside s.ball.size.x paddle1 paddle2 ∨ Beside s.ball.size.x paddle2 paddle1)
    (htime : s.passedTime < deltaTime) :
    let c := collide wall paddle1 paddle2 deltaTime s
    let c' := collide wall (paddle2.mirror wall) (paddle1.mirror wall) deltaTime (s.mirror wall)
    (c'.first.1 = c.first.1 ∧ Mirrors wall c.first.2 c'.first.2) ∧ Mirrors wall c.score c'.score ∧
      c'.scoredIndex = swapIndex c.scoredIndex := by
  dsimp only
  have hrest : 0 ≤ trunc ((deltaTime : F) - s.passedTime) :=
    Lib.trunc_nonneg (sub_nonneg.mpr htime.le)
  have hp₁ := aabbCollide_mirror s.ball deltaTime h₁
  have hp₂ := aabbCollide_mirror s.ball deltaTime h₂
  obtain ⟨hscore, hindex⟩ := ballScoreCollide_mirror hfacing hsize hrest .zero .zero
  have hwall := ballWallCollide_mirror wall s.ball deltaTime .zero .zero
  refine ⟨?_, hscore, hindex⟩
  have hswap : (collide wall (paddle2.mirror wall) (paddle1.mirror wall) deltaTime
      (s.mirror wall)).first = getFirstCollision
      [(aabbCollide (s.ball.mirror wall) (paddle1.mirror wall) deltaTime .zero).2,
        (aabbCollide (s.ball.mirror wall) (paddle2.mirror wall) deltaTime .zero).2,
        (ballWallCollide wall (s.ball.mirror wall) deltaTime .zero).2,
        (ballScoreCollide wall (s.ball.mirror wall) (trunc (deltaTime - s.passedTime)) .zero).2]
      .zero := by
    apply getFirstCollision_swap
    intro hv₂ hv₁ htoi
    have hv₁' := hp₁.1.symm.trans hv₁
    have hv₂' := hp₂.1.symm.trans hv₂
    refine absurd ?_ (aabbCollide_apart hsize h₁.whole h₂.whole hgap hv₁' hv₂')
    change (aabbCollide (s.ball.mirror wall) (paddle2.mirror wall) deltaTime .zero).2.toi =
      (aabbCollide (s.ball.mirror wall) (paddle1.mirror wall) deltaTime .zero).2.toi at htoi
    rw [hp₁.2 hv₁', hp₂.2 hv₂'] at htoi
    exact htoi.symm
  rw [hswap]
  apply getFirstCollision_mirror
  exact .cons hp₁ (.cons hp₂ (.cons hwall (.cons hscore .nil)))

/-- One trip of the mirrored loop is the mirrored trip. -/
theorem advanceBody_mirror (h₁ : IntegerFaces wall paddle1) (h₂ : IntegerFaces wall paddle2)
    (hfacing : Facing wall s.ball) (hsize : 0 ≤ s.ball.size.x)
    (hgap : Beside s.ball.size.x paddle1 paddle2 ∨ Beside s.ball.size.x paddle2 paddle1) :
    advanceBody wall (paddle2.mirror wall) (paddle1.mirror wall) deltaTime (s.mirror wall) =
      (advanceBody wall paddle1 paddle2 deltaTime s).map (AdvanceState.mirror wall)
        (Advanced.mirror wall) := by
  have hpassed : (s.mirror wall).passedTime = s.passedTime := rfl
  unfold advanceBody
  rw [hpassed]
  by_cases htime : s.passedTime < deltaTime
  · obtain ⟨⟨hfst, hfirst⟩, hscore, hindex⟩ := collide_mirror h₁ h₂ hfacing hsize hgap htime
    rw [if_pos htime, if_pos htime]
    dsimp only
    rw [hfst]
    by_cases hhit : (collide wall paddle1 paddle2 deltaTime s).first.1 = true
    · have hvalid := (Collisions.first_hit hhit).2
      have heq := hfirst.2 hvalid
      have hscored : (collide wall (paddle2.mirror wall) (paddle1.mirror wall) deltaTime
            (s.mirror wall)).first.2.toi =
          (collide wall (paddle2.mirror wall) (paddle1.mirror wall) deltaTime
            (s.mirror wall)).score.toi ↔
          (collide wall paddle1 paddle2 deltaTime s).first.2.toi =
            (collide wall paddle1 paddle2 deltaTime s).score.toi := by
        rw [heq]
        change (collide wall paddle1 paddle2 deltaTime s).first.2.toi = _ ↔ _
        constructor
        · intro htoi
          rw [htoi, hscore.1] at hvalid
          rw [htoi, hscore.2 hvalid]
          rfl
        · intro htoi
          rw [htoi] at hvalid
          rw [htoi, hscore.2 hvalid]
          rfl
      rw [if_neg (not_not.mpr hhit), if_neg (not_not.mpr hhit)]
      by_cases htoi : (collide wall paddle1 paddle2 deltaTime s).first.2.toi =
          (collide wall paddle1 paddle2 deltaTime s).score.toi
      · rw [if_pos htoi, if_pos (hscored.mpr htoi), hindex]
        rfl
      · rw [if_neg htoi, if_neg (mt hscored.mp htoi), heq]
        have hbounce := ballBounceOnCollision_mirror wall
          { s.ball with pos := (collide wall paddle1 paddle2 deltaTime s).first.2.pos }
          (collide wall paddle1 paddle2 deltaTime s).first.2.normal
        exact congrArg (fun b => Sum.inl (AdvanceState.mk b _ _)) hbounce
    · rw [if_pos hhit, if_pos hhit]
      change Sum.inr (Advanced.mk (some (linearMove (s.ball.mirror wall) _)) _) = _
      rw [linearMove_mirror]
      rfl
  · rw [if_neg htime, if_neg htime]
    rfl

end Trips

section Run
variable {wall : Wall} {paddle1 paddle2 ball : GameObj ℝ} {deltaTime : Int} {s t : AdvanceState ℝ}

theorem xLines_inside (h₁ : IntegerFaces wall paddle1) (h₂ : IntegerFaces wall paddle2) {x : Int}
    (hx : x ∈ xLines paddle1 paddle2) : wall.left ≤ x ∧ x ≤ wall.right := by
  obtain ⟨l₁, r₁, hl₁, hr₁, hin₁⟩ := h₁
  obtain ⟨l₂, r₂, hl₂, hr₂, hin₂⟩ := h₂
  unfold xLines xFaces at hx
  rw [hl₁, hr₁, hl₂, hr₂] at hx
  simp only [Lib.trunc_intCast, List.cons_append, List.nil_append, List.mem_cons,
    List.not_mem_nil, or_false] at hx
  omega

/-- The ball's leading side is at a line of the field, so its centre is in the field. -/
theorem Facing.at_xLine (h : Facing wall ball) (hsize : 0 ≤ ball.size.x) {x : Int} {c : CollInfo ℝ}
    (hline : wall.left ≤ x ∧ x ≤ wall.right) (hway : 0 < c.toi * deltaTime)
    (hX : HitX ball deltaTime x c) : wall.left ≤ c.pos.x ∧ c.pos.x ≤ wall.right := by
  have hlo : (wall.left : ℝ) ≤ x := by exact_mod_cast hline.1
  have hhi : (x : ℝ) ≤ wall.right := by exact_mod_cast hline.2
  have hpos : c.pos.x = ball.pos.x + ball.velocity.x * (c.toi * deltaTime) :=
    congrArg Vector.x hX.pos
  have hreach := hX.reach
  unfold contactX dirOf at hreach
  rcases lt_or_gt_of_ne hX.moving with hneg | hgt
  · have hback := mul_neg_of_neg_of_pos hneg hway
    have hin := h.2.resolve_right hneg.not_gt
    rw [if_neg hneg.not_gt] at hreach
    push_cast at hreach
    exact ⟨by linarith, by linarith⟩
  · have hforth := mul_pos hgt hway
    have hin := h.1.resolve_right hgt.not_gt
    rw [if_pos hgt] at hreach
    push_cast at hreach
    exact ⟨by linarith, by linarith⟩

/-- A ball that keeps its way along `x` and goes on by `d` is in the field or has left. -/
theorem Facing.onward (h : Facing wall ball) {ball' : GameObj ℝ} {k d : ℝ} (hk : 0 < k)
    (hd : 0 ≤ d) (hvel : ball'.velocity.x = k * ball.velocity.x)
    (hpos : ball'.pos.x = ball.pos.x + ball.velocity.x * d) : Facing wall ball' := by
  rw [Facing, hvel, hpos]
  constructor
  · rcases lt_or_ge ball.velocity.x 0 with hneg | hnn
    · exact Or.inr (mul_neg_of_pos_of_neg hk hneg)
    · have hforth := mul_nonneg hnn hd
      have hin := h.1.resolve_right hnn.not_gt
      exact Or.inl (by linarith)
  · rcases lt_or_ge 0 ball.velocity.x with hgt | hnp
    · exact Or.inr (mul_pos hk hgt)
    · have hback := mul_nonpos_of_nonpos_of_nonneg hnp hd
      have hin := h.2.resolve_right hnp.not_gt
      exact Or.inl (by linarith)

theorem Facing.next (h₁ : IntegerFaces wall paddle1) (h₂ : IntegerFaces wall paddle2)
    (h : Facing wall s.ball) (hsize : 0 ≤ s.ball.size.x) (h0 : 0 ≤ s.passedTime)
    (hst : advanceBody wall paddle1 paddle2 deltaTime s = .inl t) :
    Facing wall t.ball ∧ t.ball.size = s.ball.size ∧ 0 ≤ t.passedTime := by
  have htrip := advanceBody_trip wall paddle1 paddle2 deltaTime s
  rw [hst] at htrip
  cases htrip with
  | bounce htime c hfirst hne hhit =>
    have hdt : (0 : ℝ) < deltaTime := h0.trans_lt htime
    have hway : 0 < c.toi * deltaTime := mul_pos hhit.toi.1 hdt
    refine ⟨?_, by simp, add_nonneg h0 hhit.toi.1.le⟩
    rcases hhit with ⟨x, hx, hX⟩ | ⟨y, -, hY⟩
    · have hturn := h.at_xLine hsize (xLines_inside h₁ h₂ hx) hway hX
      rw [Facing, ballBounceOnCollision_pos]
      exact ⟨Or.inl hturn.1, Or.inl hturn.2⟩
    · obtain ⟨k, hk, hvel, -⟩ :=
        ballBounceOnCollision_velocity { s.ball with pos := c.pos } c.normal
      have hreflect : reflectOrthogonal s.ball.velocity c.normal =
          ⟨s.ball.velocity.x, -s.ball.velocity.y⟩ := hY.reflect
      apply h.onward (zero_lt_one.trans_le hk) hway.le
      · rw [hvel, hreflect]
      · rw [ballBounceOnCollision_pos]
        exact congrArg Vector.x hY.pos

/-- In the mirror, with the paddles swapped, a tick does the same the other way round. -/
theorem ball_fairness (h₁ : IntegerFaces wall paddle1) (h₂ : IntegerFaces wall paddle2)
    (hgap : Beside ball.size.x paddle1 paddle2 ∨ Beside ball.size.x paddle2 paddle1)
    (hcentre : wall.left ≤ ball.pos.x ∧ ball.pos.x ≤ wall.right) (hsize : 0 ≤ ball.size.x) :
    ∃ fuel r, ballAdvance fuel wall paddle1 paddle2 ball deltaTime = some r ∧
      ballAdvance fuel wall (paddle2.mirror wall) (paddle1.mirror wall) (ball.mirror wall)
        deltaTime = some (r.mirror wall) := by
  obtain ⟨r, fuel, hrun⟩ := ballAdvance_returns wall paddle1 paddle2 ball deltaTime
  refine ⟨fuel, r, hrun, ?_⟩
  have hmap : ∀ a : AdvanceState ℝ,
      (Facing wall a.ball ∧ a.ball.size = ball.size ∧ 0 ≤ a.passedTime) →
      advanceBody wall (paddle2.mirror wall) (paddle1.mirror wall) deltaTime (a.mirror wall) =
        (advanceBody wall paddle1 paddle2 deltaTime a).map (AdvanceState.mirror wall)
          (Advanced.mirror wall) := by
    intro a ⟨hfacing, hsame, _⟩
    apply advanceBody_mirror h₁ h₂ hfacing
    · rwa [hsame]
    · rwa [hsame]
  have hnext : ∀ a b : AdvanceState ℝ,
      (Facing wall a.ball ∧ a.ball.size = ball.size ∧ 0 ≤ a.passedTime) →
      advanceBody wall paddle1 paddle2 deltaTime a = .inl b →
      (Facing wall b.ball ∧ b.ball.size = ball.size ∧ 0 ≤ b.passedTime) := by
    intro a b ⟨hfacing, hsame, htime⟩ hst
    have hsizea : 0 ≤ a.ball.size.x := by rwa [hsame]
    obtain ⟨hfacing', hsame', htime'⟩ := Facing.next h₁ h₂ hfacing hsizea htime hst
    exact ⟨hfacing', hsame'.trans hsame, htime'⟩
  have hrun' := Lib.Loop.run_map (n := fuel) (s := advanceStart ball) hmap hnext
    ⟨⟨Or.inl hcentre.1, Or.inl hcentre.2⟩, rfl, le_rfl⟩
  rw [hrun] at hrun'
  exact hrun'

def pongField : Wall := ⟨320, 0, 0, 480⟩

noncomputable def rightPaddle : GameObj ℝ := ⟨0.5, ⟨475, 160⟩, ⟨0, 0⟩, ⟨10, 50⟩⟩

noncomputable def leftPaddle : GameObj ℝ := ⟨0.5, ⟨5, 160⟩, ⟨0, 0⟩, ⟨10, 50⟩⟩

noncomputable def slantedBall : GameObj ℝ := ⟨0.05, ⟨240, 160⟩, ⟨0.04, 0.03⟩, ⟨10, 10⟩⟩

theorem ball_fairness_midfield :
    ∃ fuel r, ballAdvance fuel pongField rightPaddle leftPaddle slantedBall 10000 = some r ∧
      ballAdvance fuel pongField (leftPaddle.mirror pongField) (rightPaddle.mirror pongField)
        (slantedBall.mirror pongField) 10000 = some (r.mirror pongField) := by
  have hright : IntegerFaces pongField rightPaddle :=
    ⟨470, 480, by norm_num [aabbGetBoundaries, rightPaddle],
      by norm_num [aabbGetBoundaries, rightPaddle], by decide, by decide⟩
  have hleft : IntegerFaces pongField leftPaddle :=
    ⟨0, 10, by norm_num [aabbGetBoundaries, leftPaddle],
      by norm_num [aabbGetBoundaries, leftPaddle], by decide, by decide⟩
  refine ball_fairness hright hleft (Or.inr ?_) ?_ ?_
  · norm_num [Beside, aabbGetBoundaries, rightPaddle, leftPaddle, slantedBall]
  · norm_num [pongField, slantedBall]
  · norm_num [slantedBall]

end Run

end CPong
