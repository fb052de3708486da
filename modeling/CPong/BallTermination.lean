import CPong.BallTrip
import CPong.Client
import CPong.Lib.Trail

/-!
# The ball comes to the end of its tick

A trip that goes round again is a bounce at one of finitely many contact positions on one
axis. Between two bounces on one axis the ball crosses the distance between two of them,
which takes a part of the tick bounded from below since the speed is bounded.
-/

namespace CPong

set_option autoImplicit false

open Lib (trunc Trail Spaced)
open Lib.Loop (Evals Head headAt)

/-- Where the centre of a ball of the given size can be when one of its sides touches a line. -/
noncomputable def contacts (lines : List Int) (size : ℝ) : Finset ℝ :=
  (lines.map fun l : Int => (l : ℝ) - size / 2).toFinset ∪
    (lines.map fun l : Int => (l : ℝ) + size / 2).toFinset

section
variable {ball : GameObj ℝ} {lines : List Int} {l : Int}

theorem mem_contacts (h : l ∈ lines) (v size : ℝ) :
    (l : ℝ) - dirOf v * size / 2 ∈ contacts lines size := by
  unfold dirOf contacts
  rw [Finset.mem_union, List.mem_toFinset, List.mem_toFinset, List.mem_map, List.mem_map]
  split
  · exact Or.inl ⟨l, h, by push_cast; ring⟩
  · exact Or.inr ⟨l, h, by push_cast; ring⟩

theorem contactX_mem (h : l ∈ lines) : contactX ball l ∈ contacts lines ball.size.x :=
  mem_contacts h ball.velocity.x ball.size.x

theorem contactY_mem (h : l ∈ lines) : contactY ball l ∈ contacts lines ball.size.y :=
  mem_contacts h ball.velocity.y ball.size.y

end

/-- What bounds the number of trips: two trails, one for each axis, on a way whose length
the time passed pays for. -/
structure Course (xs ys : Finset ℝ) (size : Vector ℝ) (gap top : ℝ) (deltaTime : Int) (n : Nat)
    (s : AdvanceState ℝ) : Prop where
  size : s.ball.size = size
  speed : speedOf s.ball.velocity ≤ top
  time : 0 ≤ s.passedTime ∧ (n = 0 ∨ 0 < deltaTime ∧ s.passedTime ≤ deltaTime + 1)
  turns : ∃ nx ny, n = nx + ny ∧
    Trail xs gap nx (top * deltaTime * s.passedTime) s.ball.pos.x s.ball.velocity.x ∧
    Trail ys gap ny (top * deltaTime * s.passedTime) s.ball.pos.y s.ball.velocity.y

section
variable {wall : Wall} {paddle1 paddle2 : GameObj ℝ} {deltaTime : Int} {gap top : ℝ}
  {size : Vector ℝ} {n : Nat} {s t : AdvanceState ℝ}

/-- One trip round the loop turns the ball on one axis and carries it on along the other. -/
theorem Course.next
    (h : Course (contacts (xLines paddle1 paddle2) size.x)
      (contacts (yLines wall paddle1 paddle2) size.y) size gap top deltaTime n s)
    (hx : Spaced (contacts (xLines paddle1 paddle2) size.x) gap)
    (hy : Spaced (contacts (yLines wall paddle1 paddle2) size.y) gap) (htop : 0.64 ≤ top)
    (hst : advanceBody wall paddle1 paddle2 deltaTime s = .inl t) :
    Course (contacts (xLines paddle1 paddle2) size.x)
      (contacts (yLines wall paddle1 paddle2) size.y) size gap top deltaTime (n + 1) t := by
  obtain ⟨rfl, hspeed, ⟨htime0, -⟩, nx, ny, rfl, htx, hty⟩ := h
  have htrip := advanceBody_trip wall paddle1 paddle2 deltaTime s
  rw [hst] at htrip
  cases htrip with
  | bounce htime c hfirst hne hhit =>
    obtain ⟨htoi, htoi1⟩ := hhit.toi
    have hdt : (0 : ℝ) < deltaTime := htime0.trans_lt htime
    have hstep : 0 < c.toi * deltaTime := mul_pos htoi hdt
    obtain ⟨k, hk, hvel, hcap⟩ :=
      ballBounceOnCollision_velocity { s.ball with pos := c.pos } c.normal
    have hk0 : 0 ≤ k := zero_le_one.trans hk
    have hway (u : ℝ) (hu : |u| ≤ speedOf s.ball.velocity) :
        top * deltaTime * s.passedTime + |u * (c.toi * deltaTime)| ≤
          top * deltaTime * (s.passedTime + c.toi) := by
      rw [abs_mul, abs_of_pos hstep]
      have hle := mul_le_mul_of_nonneg_right (hu.trans hspeed) hstep.le
      linarith
    have hwayx := hway _ (abs_x_le_speedOf _)
    have hwayy := hway _ (abs_y_le_speedOf _)
    have hlater : s.passedTime + c.toi ≤ deltaTime + 1 := by linarith
    refine ⟨by simp, ?_, ⟨by positivity, Or.inr ⟨by exact_mod_cast hdt, hlater⟩⟩, ?_⟩
    · rw [hvel, speedOf_scale _ hk0, speedOf_reflect]
      exact hcap.trans (max_le hspeed htop)
    · simp only [ballBounceOnCollision_pos, hvel]
      rcases hhit with ⟨x, hxm, hX⟩ | ⟨y, hym, hY⟩
      · refine ⟨nx + 1, ny, by ring, ?_, ?_⟩
        · have hst : s.ball.pos.x + s.ball.velocity.x * (c.toi * deltaTime) ∈
              contacts (xLines paddle1 paddle2) s.ball.size.x := by
            have hmem : contactX s.ball x ∈ _ := contactX_mem hxm
            rwa [← hX.reach, hX.pos] at hmem
          rw [hX.pos]
          exact (htx.turn hx hX.moving hstep hst _).longer hwayx
        · rw [hX.reflect, hX.pos]
          exact ((hty.move hstep.le).longer hwayy).scale hk0
      · refine ⟨nx, ny + 1, by ring, ?_, ?_⟩
        · rw [hY.reflect, hY.pos]
          exact ((htx.move hstep.le).longer hwayx).scale hk0
        · have hst : s.ball.pos.y + s.ball.velocity.y * (c.toi * deltaTime) ∈
              contacts (yLines wall paddle1 paddle2) s.ball.size.y := by
            have hmem : contactY s.ball y ∈ _ := contactY_mem hym
            rwa [← hY.reach, hY.pos] at hmem
          rw [hY.pos]
          exact (hty.turn hy hY.moving hstep hst _).longer hwayy

theorem Course.count {xs ys : Finset ℝ} (h : Course xs ys size gap top deltaTime n s)
    (hgap : 0 < gap) (htop : 0 ≤ top) :
    n ≤ ⌈2 * (top * deltaTime * (deltaTime + 1) + gap) / gap⌉₊ := by
  rcases h.time.2 with rfl | ⟨hdt, hle⟩
  · exact Nat.zero_le _
  · obtain ⟨nx, ny, rfl, htx, hty⟩ := h.turns
    have hdt' : (0 : ℝ) < deltaTime := by exact_mod_cast hdt
    have hway : top * deltaTime * s.passedTime ≤ top * deltaTime * (deltaTime + 1) :=
      mul_le_mul_of_nonneg_left hle (mul_nonneg htop hdt'.le)
    have hnx := htx.count hgap.le
    have hny := hty.count hgap.le
    have hsum : ((nx + ny : Nat) : ℝ) ≤ 2 * (top * deltaTime * (deltaTime + 1) + gap) / gap := by
      rw [le_div_iff₀ hgap]
      push_cast
      linarith
    exact_mod_cast hsum.trans (Nat.le_ceil _)

/-- `ball_advance` returns, whatever the walls, the paddles, the ball and the time. -/
theorem ballAdvance_returns (wall : Wall) (paddle1 paddle2 ball : GameObj ℝ) (deltaTime : Int) :
    ∃ r, Evals (advanceBody wall paddle1 paddle2 deltaTime) (advanceStart ball) r := by
  obtain ⟨gx, hgx⟩ := Lib.exists_spaced (contacts (xLines paddle1 paddle2) ball.size.x)
  obtain ⟨gy, hgy⟩ := Lib.exists_spaced (contacts (yLines wall paddle1 paddle2) ball.size.y)
  have hx := hgx.smaller (lt_min hgx.pos hgy.pos) (min_le_left gx gy)
  have hy := hgy.smaller (lt_min hgx.pos hgy.pos) (min_le_right gx gy)
  have htop : (0.64 : ℝ) ≤ max (speedOf ball.velocity) 0.64 := le_max_right _ _
  apply Lib.Loop.exists_evals_of_bound
    ⌈2 * (max (speedOf ball.velocity) 0.64 * deltaTime * (deltaTime + 1) + min gx gy) / min gx gy⌉₊
  intro n t hn
  suffices hcourse : Course (contacts (xLines paddle1 paddle2) ball.size.x)
      (contacts (yLines wall paddle1 paddle2) ball.size.y) ball.size (min gx gy)
      (max (speedOf ball.velocity) 0.64) deltaTime n t from
    hcourse.count hx.pos (by linarith)
  induction n generalizing t with
  | zero =>
    cases hn
    refine ⟨rfl, le_max_left _ _, ⟨le_rfl, Or.inl rfl⟩, 0, 0, rfl, ?_, ?_⟩
    · simpa [advanceStart] using Trail.start _ _
    · simpa [advanceStart] using Trail.start _ _
  | succ n ih =>
    obtain ⟨m, hm, hmt⟩ := Lib.Loop.headAt_succ_eq_some.mp hn
    exact (ih m hm).next hx hy htop hmt

/-- So does every frame of a client. -/
theorem updateLocalState_returns (localState : PongState ℝ) (deltaTime inputDirection : Int) :
    ∃ fuel st, updateLocalState fuel localState deltaTime inputDirection = some st := by
  obtain ⟨advanced, fuel, hrun⟩ := ballAdvance_returns
    ⟨trunc localState.boxSize.y, 0, 0, trunc localState.boxSize.x⟩ localState.player1
    localState.player2 localState.ball deltaTime
  exact ⟨fuel, _, Option.bind_eq_some_iff.mpr ⟨advanced, hrun, rfl⟩⟩

/-- The loop begins a finite number of trips and then returns. -/
theorem ball_advance_terminates (wall : Wall) (paddle1 paddle2 ball : GameObj ℝ)
    (deltaTime : Int) :
    ∃ trips r, ballAdvance (trips + 1) wall paddle1 paddle2 ball deltaTime = some r ∧
      ∀ n, (headAt (advanceBody wall paddle1 paddle2 deltaTime) n (advanceStart ball)).isSome ↔
        n ≤ trips := by
  obtain ⟨r, hevals⟩ := ballAdvance_returns wall paddle1 paddle2 ball deltaTime
  obtain ⟨trips, hrun, hheads⟩ := hevals.exists_trips
  exact ⟨trips, r, hrun, hheads⟩

end

end CPong
