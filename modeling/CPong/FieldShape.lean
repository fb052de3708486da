import CPong.MatchProgress
import CPong.WireRange
import Mathlib.Analysis.SpecialFunctions.Trigonometric.Bounds

/-!
# The field keeps its shape

The sizes of things, the columns of the paddles and the velocity of the ball all along a match: on
the server, in the packets under way, and at the clients.
-/

namespace CPong

set_option autoImplicit false

open Lib
open Lib.Loop (Head)

section Shape

/-- The ball moves along both axes, and not too fast. -/
structure Moving (slowest v : Vector ℝ) : Prop where
  x : slowest.x ≤ |v.x|
  y : slowest.y ≤ |v.y|
  speed : speedOf v ≤ 0.64

structure PaddleShape (i : Fin 2) (paddle : GameObj ℝ) : Prop where
  column : paddle.pos.x = if i = 0 then 475 else 5
  size : paddle.size = ⟨10, 50⟩
  velocityX : paddle.velocity.x = 0
  velocityY : |paddle.velocity.y| ≤ 0.5

/-- No ball is launched slower than this. -/
noncomputable def launch : Vector ℝ := ⟨0.028, 0.024⟩

/-- The same for what the wire leaves of a velocity. -/
noncomputable def shownLaunch : Vector ℝ := ⟨0.0279, 0.0239⟩

structure FieldShape (state : PongState ℝ) : Prop where
  boxSize : state.boxSize = ⟨480, 320⟩
  paddle : ∀ i, PaddleShape i (playerOf state i)
  ballSize : state.ball.size = ⟨10, 10⟩
  ball : Moving launch state.ball.velocity

/-- The field of a client, whose ball is gone after a goal that only the client has seen. -/
structure ShownShape (state : PongState ℝ) : Prop where
  boxSize : state.boxSize = ⟨480, 320⟩
  paddle : ∀ i, PaddleShape i (playerOf state i)
  ballSize : state.ball.size = ⟨10, 10⟩ ∨ state.ball.size = ⟨0, 0⟩
  ball : Moving shownLaunch state.ball.velocity ∨ state.ball.velocity = ⟨0, 0⟩

end Shape

section Ball
variable {wall : Wall} {paddle1 paddle2 ball : GameObj ℝ} {deltaTime : Int} {slowest v : Vector ℝ}

/-- What a reflection with some gain of speed keeps, `ball_advance` keeps. -/
theorem ballAdvance_velocity {P : Vector ℝ → Prop}
    (hP : ∀ v normal k, P v → 1 ≤ k → k * speedOf v ≤ max (speedOf v) 0.64 →
      P ⟨k * (reflectOrthogonal v normal).x, k * (reflectOrthogonal v normal).y⟩)
    (h : P ball.velocity) {fuel : Nat} {r : Advanced ℝ}
    (hrun : ballAdvance fuel wall paddle1 paddle2 ball deltaTime = some r) :
    (∀ upd, r.ballUpd = some upd → upd.size = ball.size ∧ P upd.velocity) ∧
      (r.ballUpd = none → r.scoredIndex = some 0 ∨ r.scoredIndex = some 1) := by
  obtain ⟨s, hs, hout⟩ := Lib.Loop.evals_iff.mp ⟨fuel, hrun⟩
  have hsize := head_ball_size hs
  have hhead : P s.ball.velocity := by
    refine Head.invariant (I := fun s : AdvanceState ℝ => P s.ball.velocity) h ?_ hs
    intro a b _ hI hab
    have htrip := advanceBody_trip wall paddle1 paddle2 deltaTime a
    rw [hab] at htrip
    cases htrip with
    | bounce htime c hfirst hne hhit =>
      obtain ⟨k, hk, hvelocity, hle⟩ :=
        ballBounceOnCollision_velocity { a.ball with pos := c.pos } c.normal
      rw [hvelocity]
      exact hP _ _ k hI hk hle
  have htrip := advanceBody_trip wall paddle1 paddle2 deltaTime s
  rw [hout] at htrip
  constructor
  · intro upd hupd
    cases htrip with
    | timeUp htime =>
      cases hupd
      exact ⟨hsize, hhead⟩
    | free htime hnone =>
      cases hupd
      exact ⟨hsize, hhead⟩
    | score htime i hi hfirst heq => cases hupd
  · intro hupd
    cases htrip with
    | timeUp htime => cases hupd
    | free htime hnone => cases hupd
    | score htime i hi hfirst heq =>
      rcases hi with rfl | rfl
      · exact Or.inl rfl
      · exact Or.inr rfl

theorem abs_reflect (v normal : Vector ℝ) :
    |(reflectOrthogonal v normal).x| = |v.x| ∧ |(reflectOrthogonal v normal).y| = |v.y| := by
  unfold reflectOrthogonal
  split
  · exact ⟨rfl, abs_neg _⟩
  · exact ⟨abs_neg _, rfl⟩

theorem Moving.stretch {k : ℝ} (h : Moving slowest v) (normal : Vector ℝ) (hk : 1 ≤ k)
    (hcap : k * speedOf v ≤ max (speedOf v) 0.64) :
    Moving slowest ⟨k * (reflectOrthogonal v normal).x, k * (reflectOrthogonal v normal).y⟩ := by
  obtain ⟨hx, hy⟩ := abs_reflect v normal
  have hk0 : 0 ≤ k := zero_le_one.trans hk
  refine ⟨?_, ?_, ?_⟩
  · rw [abs_mul, abs_of_nonneg hk0, hx]
    exact h.x.trans (le_mul_of_one_le_left (abs_nonneg _) hk)
  · rw [abs_mul, abs_of_nonneg hk0, hy]
    exact h.y.trans (le_mul_of_one_le_left (abs_nonneg _) hk)
  · rw [speedOf_scale _ hk0, speedOf_reflect]
    exact hcap.trans (max_le h.speed le_rfl)

theorem stretch_rest (normal : Vector ℝ) (k : ℝ) :
    (⟨k * (reflectOrthogonal ⟨0, 0⟩ normal).x, k * (reflectOrthogonal ⟨0, 0⟩ normal).y⟩ :
      Vector ℝ) = ⟨0, 0⟩ := by
  unfold reflectOrthogonal
  split <;> simp

end Ball

section Launch

theorem abs_direction (n : Nat) : |(((n % 2 : Nat) * 2 - 1 : Int) : ℝ)| = 1 := by
  rw [← sq_eq_sq₀ (abs_nonneg _) zero_le_one, sq_abs, sq_direction, one_pow]

/-- The angles of `init_ball` are from 30 to 53 degrees. -/
theorem launch_angle (rnd : Nat) :
    ∃ a : ℝ, 0.5235 ≤ a ∧ a ≤ 0.9236 ∧
      vectorRandomAngle (pi / 6 : ℝ) (pi / 3) 0.1 rnd = ⟨Real.cos a, Real.sin a⟩ := by
  have hrange : trunc ((pi / 3 - pi / 6 : ℝ) / 0.1) = 5 := by
    rw [trunc_of_nonneg (by norm_num [pi]), Int.floor_eq_iff]
    norm_num [pi]
  refine ⟨pi / 6 + 0.1 * (((rnd : Int).tmod 5 : Int) : ℝ), ?_, ?_, ?_⟩
  · have hlo : (0 : ℝ) ≤ ((rnd : Int).tmod 5 : Int) := by
      exact_mod_cast Int.tmod_nonneg 5 (Int.natCast_nonneg rnd)
    norm_num [pi]
    linarith
  · have hhi : (((rnd : Int).tmod 5 : Int) : ℝ) ≤ 4 := by
      have hlt := Int.tmod_lt_of_pos (rnd : Int) (by decide : (0 : Int) < 5)
      have hle : (rnd : Int).tmod 5 ≤ 4 := by omega
      exact_mod_cast hle
    norm_num [pi]
    linarith
  · unfold vectorRandomAngle
    rw [hrange]
    rfl

theorem moving_launch (ball : GameObj ℝ) (rands : Rands) :
    Moving launch (initBall ball rands).velocity := by
  obtain ⟨a, hlo, hhi, hangle⟩ := launch_angle rands.angle
  have hcos : 0.57 ≤ Real.cos a := by
    have hle := Real.one_sub_sq_div_two_le_cos (x := a)
    nlinarith
  have hsin : 0.48 ≤ Real.sin a := by
    have hlt := Real.sin_gt_sub_cube (by linarith : 0 < a)
    have hgrows : a - a ^ 3 / 6 - (0.5235 - 0.5235 ^ 3 / 6) =
        (a - 0.5235) * (1 - (a ^ 2 + 0.5235 * a + 0.5235 ^ 2) / 6) := by ring
    have hgain : 0 ≤ (a - 0.5235) * (1 - (a ^ 2 + 0.5235 * a + 0.5235 ^ 2) / 6) := by
      apply mul_nonneg
      · linarith
      · nlinarith
    rw [← hgrows] at hgain
    norm_num at hgain
    linarith
  refine ⟨?_, ?_, speedOf_initBall ball rands⟩
  · simp only [initBall, hangle, launch]
    rw [abs_mul, abs_mul, abs_direction, abs_of_pos (by linarith : 0 < Real.cos a)]
    norm_num
    linarith
  · simp only [initBall, hangle, launch]
    rw [abs_mul, abs_mul, abs_direction, abs_of_pos (by linarith : 0 < Real.sin a)]
    norm_num
    linarith

theorem FieldShape.initGame (state : PongState ℝ) (rands : Rands) :
    FieldShape (initGame state rands) where
  boxSize := rfl
  paddle i := by
    match i with
    | 0 =>
      refine ⟨?_, rfl, rfl, ?_⟩
      · change (480 - 10 / 2 : ℝ) = 475
        norm_num
      · change |(0 : ℝ)| ≤ 0.5
        norm_num
    | 1 =>
      refine ⟨?_, rfl, rfl, ?_⟩
      · change (10 / 2 : ℝ) = 5
        norm_num
      · change |(0 : ℝ)| ≤ 0.5
        norm_num
  ballSize := rfl
  ball := moving_launch state.ball rands

theorem PaddleShape.moved_on {i : Fin 2} {paddle : GameObj ℝ} (h : PaddleShape i paddle) (t : Int) :
    PaddleShape i (linearMove paddle t) := by
  refine ⟨?_, h.size, h.velocityX, h.velocityY⟩
  rw [linearMove_pos_x, h.velocityX, zero_mul, add_zero]
  exact h.column

theorem PaddleShape.steered {i : Fin 2} {paddle : GameObj ℝ} (h : PaddleShape i paddle)
    (hspeed : paddle.speed = 0.5) (acc : I32) : PaddleShape i (steer paddle acc) := by
  refine ⟨h.column, h.size, h.velocityX, ?_⟩
  have hdir : |(getInputAccDirection acc : ℝ)| ≤ 1 := by
    unfold getInputAccDirection
    split_ifs <;> norm_num
  simp only [steer, hspeed]
  rw [abs_mul, abs_of_pos (by norm_num : (0 : ℝ) < 0.5)]
  linarith

/-- The field of the server is in shape, but for the time between a goal and the new round, when
its ball is gone. -/
structure ServerShape (s : RoundServer ℝ) : Prop where
  field : (∀ scoredIndex, s.sender = .advanced scoredIndex → scoredIndex = -1) →
    FieldShape s.globals.state
  upds : ∀ upds, s.sender = .applied upds → ∀ i, PaddleShape i (updOf upds i)

section Server
variable {room : Room} {ssync : I8} {s t : RoundServer ℝ}

/-- A tick keeps the shape, however long it is and whatever its out-parameter held. -/
theorem ServerShape.advance {tick : Tick} (h : ServerShape s)
    (hstep : roundStep s (.advance tick) = some t) : ServerShape t := by
  obtain ⟨upds, ball, scoredIndex, happlied, hadvance, rfl⟩ := roundStep_advance hstep
  have hfield := h.field (by rw [happlied]; simp)
  refine ⟨fun hsender => ?_, by simp⟩
  have hplays : scoredIndex = -1 := hsender scoredIndex rfl
  subst hplays
  obtain ⟨advanced, hrun, hres⟩ := Option.bind_eq_some_iff.mp hadvance
  simp only [Option.pure_def, Option.some.injEq, Prod.mk.injEq] at hres
  obtain ⟨hscored, hmoved⟩ := hres
  have hball : advanced.ballUpd.getD .zero = ball := congrArg (fun g => g.state.ball) hmoved
  obtain ⟨hupd, hnone⟩ := ballAdvance_velocity
    (fun v normal k hv hk hcap => Moving.stretch hv normal hk hcap) hfield.ball hrun
  cases hout : advanced.ballUpd with
  | none =>
    rcases hnone hout with hzero | hone
    · rw [hzero, Option.getD_some] at hscored
      exact absurd hscored (by decide)
    · rw [hone, Option.getD_some] at hscored
      exact absurd hscored (by decide)
  | some upd =>
    obtain ⟨hsize, hmoving⟩ := hupd upd hout
    rw [hout, Option.getD_some] at hball
    subst hball
    refine ⟨hfield.boxSize, fun i => ?_, hsize.trans hfield.ballSize, hmoving⟩
    rw [playerOf_moved]
    exact h.upds upds happlied i

theorem ServerShape.inputs (hm : ServerCounts room ssync s) (h : ServerShape s)
    (hstep : roundStep s .inputs = some t) : ServerShape t := by
  obtain ⟨hidle, rfl⟩ := roundStep_inputs hstep
  have hfield := h.field (by rw [hidle]; simp)
  have hsteered (i : Fin 2) :
      PaddleShape i (steer (playerOf s.globals.state i) (inputOf s.globals i)) :=
    (hfield.paddle i).steered (hm.speed i) _
  refine ⟨fun _ => ⟨hfield.boxSize, fun i => ?_, hfield.ballSize, hfield.ball⟩,
    fun upds hupds i => ?_⟩
  · dsimp only
    rw [(playerOf_sendStateInputs s.globals i).1]
    exact hsteered i
  · cases hupds
    rw [(playerOf_sendStateInputs s.globals i).2]
    exact (hsteered i).moved_on _

theorem ServerShape.step {l : RoundSection ℝ} (hm : ServerCounts room ssync s) (h : ServerShape s)
    (hstep : roundStep s l = some t) : ServerShape t := by
  cases l with
  | check id res packet =>
    obtain ⟨-, ⟨-, rfl⟩ | ⟨-, rfl⟩ | ⟨-, -, -, rfl⟩⟩ := roundStep_check hstep
    · exact ⟨h.field, h.upds⟩
    · exact h
    · exact ⟨h.field, h.upds⟩
  | accumulate =>
    obtain ⟨id, inputAccMs, tag, -, rfl⟩ := roundStep_accumulate hstep
    refine ⟨?_, ?_⟩
    · simpa only [RoundServer.credit_sender, onInputReadyAccumulate_state] using h.field
    · simpa only [RoundServer.credit_sender, onInputReadyAccumulate_state] using h.upds
  | inputs => exact h.inputs hm hstep
  | advance tick => exact h.advance hstep
  | score rands =>
    obtain ⟨scoredIndex, i, -, -, rfl⟩ := roundStep_score hstep
    have hnew := FieldShape.initGame s.globals.state rands
    exact ⟨fun _ => ⟨hnew.boxSize, hnew.paddle, hnew.ballSize, hnew.ball⟩, by simp⟩
  | announce =>
    obtain ⟨k, hk, rfl⟩ := roundStep_announce hstep
    refine ⟨fun _ => h.field ?_, by simp⟩
    rcases hk with ⟨hsender, -⟩ | ⟨hsender, -⟩
    · rw [hsender]
      intro scoredIndex hscored
      cases hscored
      rfl
    · rw [hsender]
      simp

end Server

end Launch

theorem abs_quantize_le (x : ℝ) : |quantize x| ≤ |x| := by
  have htrunc := abs_trunc_le (x * 10000)
  rw [abs_mul, abs_of_pos (by norm_num : (0 : ℝ) < 10000)] at htrunc
  unfold quantize
  rw [abs_div, abs_of_pos (by norm_num : (0 : ℝ) < 10000), div_le_iff₀ (by norm_num)]
  exact htrunc

section Wire
variable (host : Host ℝ)

theorem receivedFloat_zero : receivedFloat host (0 : ℝ) = 0 := by
  have h := receivedFloat_intCast host (n := 0) (by norm_num)
  simpa using h

theorem receivedFloat_ofNat (n : Nat) [n.AtLeastTwo] (h : n < 200000) :
    receivedFloat host (OfNat.ofNat n : ℝ) = OfNat.ofNat n := by
  have hlt : |(n : Int)| < 200000 := by
    rw [abs_of_nonneg (Int.natCast_nonneg n)]
    exact_mod_cast h
  have hcast := receivedFloat_intCast host hlt
  rw [Int.cast_natCast] at hcast
  exact hcast

/-- A velocity loses less than the precision of the wire, and gains nothing. -/
theorem receivedFloat_small {v : ℝ} (h : |v| ≤ 1000) :
    |receivedFloat host v| ≤ |v| ∧ |v| - 1 / 10000 ≤ |receivedFloat host v| := by
  rw [receivedFloat_eq_quantize host (fitsWire_of_le h)]
  refine ⟨abs_quantize_le v, ?_⟩
  have hclose := abs_quantize_sub_lt v
  have htriangle := abs_sub_abs_le_abs_sub v (quantize v)
  rw [abs_sub_comm] at htriangle
  linarith

theorem Moving.received {v : Vector ℝ} (h : Moving launch v) :
    Moving shownLaunch ⟨receivedFloat host v.x, receivedFloat host v.y⟩ := by
  have hx := (abs_x_le_speedOf v).trans h.speed
  have hy := (abs_y_le_speedOf v).trans h.speed
  obtain ⟨hxle, hxge⟩ := receivedFloat_small host (hx.trans (by norm_num))
  obtain ⟨hyle, hyge⟩ := receivedFloat_small host (hy.trans (by norm_num))
  have hlx := h.x
  have hly := h.y
  refine ⟨?_, ?_, ?_⟩
  · simp only [launch, shownLaunch] at hlx ⊢
    norm_num at hlx hxge ⊢
    linarith
  · simp only [launch, shownLaunch] at hly ⊢
    norm_num at hly hyge ⊢
    linarith
  · refine le_trans (Real.sqrt_le_sqrt ?_) h.speed
    exact add_le_add (abs_le_iff_mul_self_le.mp hxle) (abs_le_iff_mul_self_le.mp hyle)

/-- The paddle of a `PACKET_INIT` as it is received. -/
theorem PaddleShape.received {i : Fin 2} {p : GameObj ℝ} (h : PaddleShape i p) (speed : ℝ) :
    PaddleShape i ⟨speed, ⟨receivedFloat host p.pos.x, receivedFloat host p.pos.y⟩,
      ⟨receivedFloat host p.velocity.x, receivedFloat host p.velocity.y⟩,
      ⟨receivedFloat host p.size.x, receivedFloat host p.size.y⟩⟩ := by
  refine ⟨?_, ?_, ?_, ?_⟩
  · dsimp only
    rw [h.column]
    match i with
    | 0 => exact receivedFloat_ofNat host 475 (by decide)
    | 1 => exact receivedFloat_ofNat host 5 (by decide)
  · rw [h.size, receivedFloat_ofNat host 10 (by decide), receivedFloat_ofNat host 50 (by decide)]
  · dsimp only
    rw [h.velocityX, receivedFloat_zero]
  · have hv := h.velocityY
    exact (receivedFloat_small host (hv.trans (by norm_num))).1.trans hv

variable (client : Host ℝ) {p : Packet ℝ}

theorem FieldShape.received_init (h : FieldShape p.data.state)
    (htype : p.type = CpongPacket.init.code) (r : Packet ℝ) :
    ShownShape (packetReceived host client p r).data.state := by
  rw [packetReceived_of_type host client htype]
  refine ⟨?_, ?_, Or.inl ?_, Or.inl (h.ball.received host)⟩
  · change (⟨receivedFloat host p.data.state.boxSize.x,
      receivedFloat host p.data.state.boxSize.y⟩ : Vector ℝ) = _
    rw [h.boxSize, receivedFloat_ofNat host 480 (by decide),
      receivedFloat_ofNat host 320 (by decide)]
  · intro i
    match i with
    | 0 => exact (h.paddle 0).received host _
    | 1 => exact (h.paddle 1).received host _
  · change (⟨receivedFloat host p.data.state.ball.size.x,
      receivedFloat host p.data.state.ball.size.y⟩ : Vector ℝ) = _
    rw [h.ballSize, receivedFloat_ofNat host 10 (by decide)]

/-- What `server_snap` takes from a `PACKET_STATE`. -/
theorem FieldShape.received_state (h : FieldShape p.data.state)
    (htype : p.type = CpongPacket.state.code) (r : Packet ℝ) :
    Moving shownLaunch (packetReceived host client p r).data.state.ball.velocity ∧
      ∀ i, |(playerOf (packetReceived host client p r).data.state i).velocity.y| ≤ 0.5 := by
  rw [packetReceived_of_type host client htype]
  refine ⟨h.ball.received host, ?_⟩
  intro i
  have hv := (h.paddle i).velocityY
  have hle := (receivedFloat_small host (hv.trans (by norm_num))).1.trans hv
  match i with
  | 0 => exact hle
  | 1 => exact hle

end Wire

section Clients

theorem PaddleShape.snapped {i : Fin 2} {paddle : GameObj ℝ} (h : PaddleShape i paddle) {v : ℝ}
    (hv : |v| ≤ 0.5) (y : ℝ) :
    PaddleShape i { paddle with
      pos := { paddle.pos with y := y }
      velocity := { paddle.velocity with y := v } } :=
  ⟨h.column, h.size, h.velocityX, hv⟩

theorem ShownShape.snap {localState server : PongState ℝ} (h : ShownShape localState)
    (hball : Moving shownLaunch server.ball.velocity)
    (hpaddle : ∀ i, |(playerOf server i).velocity.y| ≤ 0.5) :
    ShownShape (serverSnap localState server) := by
  unfold serverSnap
  split_ifs with hown
  · refine ⟨h.boxSize, ?_, h.ballSize, Or.inl hball⟩
    intro i
    match i with
    | 0 => exact (h.paddle 0).snapped (hpaddle 0) _
    | 1 => exact h.paddle 1
  · refine ⟨h.boxSize, ?_, h.ballSize, Or.inl hball⟩
    intro i
    match i with
    | 0 => exact h.paddle 0
    | 1 => exact (h.paddle 1).snapped (hpaddle 1) _

theorem PaddleShape.steeredOwn {i : Fin 2} {paddle : GameObj ℝ} (h : PaddleShape i paddle)
    {direction : Int} (hd : |direction| ≤ 1) : PaddleShape i (steerOwn paddle direction) := by
  refine ⟨h.column, h.size, h.velocityX, ?_⟩
  have hle : |(direction : ℝ)| ≤ 1 := by exact_mod_cast hd
  change |(direction : ℝ) * 0.5| ≤ 0.5
  rw [abs_mul, abs_of_pos (by norm_num : (0 : ℝ) < 0.5)]
  linarith

/-- A frame keeps the shape of what is shown, or loses the ball to a goal. -/
theorem ShownShape.frame {fuel : Nat} {localState st : PongState ℝ} {deltaTime direction : Int}
    (h : ShownShape localState) (hd : |direction| ≤ 1)
    (hupdate : updateLocalState fuel localState deltaTime direction = some st) :
    ShownShape st := by
  obtain ⟨advanced, hrun, hres⟩ := Option.bind_eq_some_iff.mp hupdate
  cases hres
  obtain ⟨hupd, -⟩ := ballAdvance_velocity
    (P := fun v => Moving shownLaunch v ∨ v = ⟨0, 0⟩) (fun v normal k hv hk hcap => by
      rcases hv with hmoving | rfl
      · exact Or.inl (hmoving.stretch normal hk hcap)
      · exact Or.inr (stretch_rest normal k)) h.ball hrun
  refine ⟨h.boxSize, ?_, ?_, ?_⟩
  · intro i
    by_cases hown : 0 = localState.ownIdIndex
    · simp only [if_pos hown]
      match i with
      | 0 => exact ((h.paddle 0).steeredOwn hd).moved_on deltaTime
      | 1 => exact (h.paddle 1).moved_on deltaTime
    · simp only [if_neg hown]
      match i with
      | 0 => exact (h.paddle 0).moved_on deltaTime
      | 1 => exact ((h.paddle 1).steeredOwn hd).moved_on deltaTime
  · cases hout : advanced.ballUpd with
    | none => exact Or.inr rfl
    | some upd =>
      obtain ⟨hsize, -⟩ := hupd upd hout
      rw [Option.getD_some, hsize]
      exact h.ballSize
  · cases hout : advanced.ballUpd with
    | none => exact Or.inr rfl
    | some upd => exact (hupd upd hout).2

end Clients

section WholeMatch

/-- What a client shows is in shape, and what it is about to move its paddle by is a direction. -/
structure ClientShape (c : ClientThreads ℝ) : Prop where
  shown : ShownShape c.args.localState
  frame : ∀ direction deltaTime, c.frame = some (direction, deltaTime) → |direction| ≤ 1

/-- What holds of the server, of the packets and of the clients at any time of a match. -/
structure KeepsShape (s : MatchThreads ℝ) : Prop where
  server : ServerShape s.server
  down : ∀ i, ∀ p ∈ s.down i, FieldShape p.data.state
  clients : ∀ i c, s.clients i = some c → ClientShape c

section Match
variable {m : Match ℝ} {s t : MatchThreads ℝ} {ssync : I8}

theorem KeepsShape.start (rands : Rands) (g : Globals ℝ) : KeepsShape (matchBegin m rands g) := by
  have hstate : FieldShape (matchBegin m rands g).server.globals.state := FieldShape.initGame _ rands
  refine ⟨⟨fun _ => hstate, by simp [matchBegin, RoundServer.initial]⟩, fun i p hp => ?_,
    fun i c hc => ?_⟩
  · rw [List.mem_singleton.mp hp]
    exact ⟨hstate.boxSize, hstate.paddle, hstate.ballSize, hstate.ball⟩
  · cases hc

theorem KeepsShape.update {j : Fin 2} {client : ClientThreads ℝ} (h : KeepsShape s)
    (hclient : ClientShape client) :
    KeepsShape { s with clients := Function.update s.clients j (some client) } := by
  refine ⟨h.server, h.down, fun i c hc => ?_⟩
  by_cases hi : i = j
  · subst hi
    cases (Function.update_self i (some client) s.clients).symm.trans hc
    exact hclient
  · exact h.clients i c ((Function.update_of_ne hi ..).symm.trans hc)

theorem KeepsShape.onClient {j : Fin 2} {l : ClientSection ℝ} (h : KeepsShape s)
    (hstep : onClient s j l = some t)
    (hkeeps : ∀ c c', clientStep c l = some c' → ClientShape c → ClientShape c') :
    KeepsShape t := by
  obtain ⟨c, c', hc, hnext, rfl⟩ := onClient_eq_some hstep
  exact h.update (hkeeps c c' hnext (h.clients j c hc))

theorem KeepsShape.onServer {l : RoundSection ℝ} (h : KeepsShape s)
    (hm : MatchInv m.room ssync s) (hstep : onServer s l = some t) : KeepsShape t := by
  obtain ⟨server, hserver, rfl⟩ := onServer_eq_some hstep
  exact ⟨h.server.step hm.server hserver, h.down, h.clients⟩

/-- A client takes over a field of the right shape, or shows what it can of the server's. -/
theorem Taken.shape {i : Fin 2} {p : Packet ℝ} {old : Option (ClientThreads ℝ)}
    {client : ClientThreads ℝ} (htaken : Taken m i p old client) (hp : FieldShape p.data.state)
    (hold : ∀ c, old = some c → ClientShape c) : ClientShape client := by
  cases htaken with
  | first htype =>
    have hreceived := hp.received_init m.server (m.client i) htype Packet.zero
    exact ⟨⟨hreceived.boxSize, hreceived.paddle, hreceived.ballSize, hreceived.ball⟩,
      fun direction deltaTime hframe => by cases hframe⟩
  | @state c args htype hidle hargs =>
    subst hargs
    obtain ⟨hball, hpaddle⟩ := hp.received_state m.server (m.client i) htype Packet.zero
    exact ⟨(hold c rfl).shown.snap hball hpaddle, (hold c rfl).frame⟩
  | @init c args htype hidle hargs =>
    subst hargs
    have hreceived := hp.received_init m.server (m.client i) htype Packet.zero
    exact ⟨⟨hreceived.boxSize, hreceived.paddle, hreceived.ballSize, hreceived.ball⟩,
      (hold c rfl).frame⟩

theorem KeepsShape.receive {j : Fin 2} (h : KeepsShape s) (hm : MatchInv m.room ssync s)
    (hstep : matchStep m s (.receive j) = some t) : KeepsShape t := by
  obtain ⟨p, rest, client, hdown, htaken, rfl⟩ := hm.taken hstep
  have hp := h.down j p (by rw [hdown]; exact List.mem_cons_self)
  have hnext := h.update (j := j) (htaken.shape hp (h.clients j))
  refine ⟨hnext.server, fun i q hq => ?_, hnext.clients⟩
  by_cases hi : i = j
  · subst hi
    simp only [Function.update_self] at hq
    exact h.down i q (by rw [hdown]; exact List.mem_cons_of_mem _ hq)
  · simp only [Function.update_of_ne hi] at hq
    exact h.down i q hq

theorem KeepsShape.announce (h : KeepsShape s) (hm : MatchInv m.room ssync s)
    (hstep : matchStep m s .announce = some t) : KeepsShape t := by
  obtain ⟨k, hk, rfl⟩ := matchStep_announce hstep
  have hserver := h.server.step hm.server (roundStep_announce_eq hk)
  refine ⟨hserver, fun i q hq => ?_, h.clients⟩
  rcases List.mem_append.mp hq with hold | hnew
  · exact h.down i q hold
  · rw [List.mem_singleton.mp hnew]
    exact hserver.field (by simp)

theorem KeepsShape.step {l : MatchSection ℝ} (h : KeepsShape s) (hm : MatchInv m.room ssync s)
    (hstep : matchStep m s l = some t) : KeepsShape t := by
  cases l with
  | check j garbage =>
    obtain ⟨p, rest, receiver, -, -, -, rfl⟩ := matchStep_check hstep (hm.up j)
    exact ⟨⟨h.server.field, h.server.upds⟩, h.down, h.clients⟩
  | accumulate => exact h.onServer hm hstep
  | inputs => exact h.onServer hm hstep
  | advance tick => exact h.onServer hm hstep
  | score rands => exact h.onServer hm hstep
  | announce => exact h.announce hm hstep
  | receive j => exact h.receive hm hstep
  | setSync j =>
    refine h.onClient hstep fun c c' hc hshape => ?_
    obtain ⟨sync, -, rfl⟩ := clientStep_setSync hc
    exact ⟨hshape.shown, hshape.frame⟩
  | zeroInput j =>
    refine h.onClient hstep fun c c' hc hshape => ?_
    obtain ⟨stale, -, rfl⟩ := clientStep_zeroInput hc
    exact ⟨hshape.shown, hshape.frame⟩
  | paddleInputs j up down deltaTime =>
    refine h.onClient hstep fun c c' hc hshape => ?_
    obtain ⟨-, rfl⟩ := clientStep_paddleInputs hc
    refine ⟨hshape.shown, fun direction deltaTime' hframe => ?_⟩
    cases hframe
    rcases inputDirection_cases up down with hd | hd | hd <;> rw [hd] <;> decide
  | localState j fuel =>
    refine h.onClient hstep fun c c' hc hshape => ?_
    obtain ⟨direction, deltaTime, localState, hframe, hlocal, rfl⟩ := clientStep_localState hc
    refine ⟨hshape.shown.frame (hshape.frame direction deltaTime hframe) hlocal, ?_⟩
    intro direction' deltaTime' hnone
    cases hnone
  | network j =>
    obtain ⟨c, hc, rfl⟩ := matchStep_network hstep
    have hold := h.clients j c hc
    have hclient : ClientShape c.networked := ⟨hold.shown, hold.frame⟩
    have hnext := h.update (j := j) hclient
    exact ⟨hnext.server, hnext.down, hnext.clients⟩

/-- All along a match the server has the sizes, the columns of the paddles and a ball that moves
along both axes at no more than `0.64`, but for the time between a goal and the new round, so does
each packet under way, and each client shows the same, but for what the wire cuts off and a ball
that it has lost to a goal. -/
theorem field_keeps_shape {rands : Rands} {g : Globals ℝ} {ls : List (MatchSection ℝ)}
    (h : System.run (matchStep m) (matchBegin m rands g) ls = some s) : KeepsShape s := by
  have hnext : ∀ s l t, KeepsShape s ∧ MatchInv m.room g.ssync s → matchStep m s l = some t →
      KeepsShape t ∧ MatchInv m.room g.ssync t := by
    intro s l t hs hstep
    exact ⟨hs.1.step hs.2 hstep, hs.2.step hstep⟩
  exact (System.invariant hnext ⟨.start rands g, .start rands g⟩ h).1

end Match

/-- The second player's client shows its ball after a frame that a tick came into. -/
theorem field_keeps_shape_firstFrame :
    ∃ fuel fuel' s c, System.run (matchStep realMatch) (matchBegin realMatch ⟨0, 1, 1⟩ .zero)
      (firstFrame fuel fuel') = some s ∧ s.clients 1 = some c ∧ ServerShape s.server ∧
        ClientShape c := by
  obtain ⟨fuel, fuel', s, c, hs, hc⟩ := firstFrame_exists
  have hshape := field_keeps_shape hs
  exact ⟨fuel, fuel', s, c, hs, hc, hshape.server, hshape.clients 1 c hc⟩

end WholeMatch

end CPong
