import CPong.BallTrip
import CPong.Client
import CPong.Lib.System

/-!
# The ball that a client predicts

`update_local_state` takes over what `ball_advance` has written, also when that is nothing: a
predicted goal leaves a ball without a size, which no `PACKET_STATE` gives back.
-/

namespace CPong

set_option autoImplicit false

open Lib (trunc)
open Lib.Loop (Evals Head)
open Lib.System

section Goal
variable {F : Type} [Field F] [LinearOrder F] [FloorRing F] [Libm F]

/-- `ball_advance` comes to a trip with time left in which a goal line is hit first. -/
def EndsInGoal (wall : Wall) (paddle1 paddle2 ball : GameObj F) (deltaTime : Int) : Prop :=
  ∃ s, Head (advanceBody wall paddle1 paddle2 deltaTime) (advanceStart ball) s ∧
    s.passedTime < deltaTime ∧ (collide wall paddle1 paddle2 deltaTime s).first.1 = true ∧
    (collide wall paddle1 paddle2 deltaTime s).first.2.toi =
      (collide wall paddle1 paddle2 deltaTime s).score.toi

variable [IsStrictOrderedRing F] {wall : Wall} {paddle1 paddle2 ball : GameObj F} {deltaTime : Int}

omit [IsStrictOrderedRing F] in
theorem EndsInGoal.ballUpd (h : EndsInGoal wall paddle1 paddle2 ball deltaTime) {r : Advanced F}
    (hr : Evals (advanceBody wall paddle1 paddle2 deltaTime) (advanceStart ball) r) :
    r.ballUpd = none := by
  obtain ⟨s, hhead, htime, hfirst, heq⟩ := h
  have hgoal : advanceBody wall paddle1 paddle2 deltaTime s =
      .inr ⟨none, some (collide wall paddle1 paddle2 deltaTime s).scoredIndex⟩ := by
    unfold advanceBody
    rw [if_pos htime]
    dsimp only
    rw [if_neg (not_not.mpr hfirst), if_pos heq]
  rw [hr.unique (Lib.Loop.evals_iff.mpr ⟨s, hhead, hgoal⟩)]

/-- `ball_advance` writes no ball in case of a goal, and otherwise one of the old size. -/
theorem ballAdvance_ball {r : Advanced F}
    (h : Evals (advanceBody wall paddle1 paddle2 deltaTime) (advanceStart ball) r) :
    EndsInGoal wall paddle1 paddle2 ball deltaTime ∧ r.ballUpd = none ∨
      ¬ EndsInGoal wall paddle1 paddle2 ball deltaTime ∧
        ∃ upd, r.ballUpd = some upd ∧ upd.size = ball.size := by
  obtain ⟨s, hhead, hs⟩ := Lib.Loop.evals_iff.mp h
  have hsize := head_ball_size hhead
  have hnot {upd : GameObj F} (hupd : r.ballUpd = some upd) :
      ¬ EndsInGoal wall paddle1 paddle2 ball deltaTime := by
    intro hgoal
    cases hupd.symm.trans (hgoal.ballUpd h)
  have htrip := advanceBody_trip wall paddle1 paddle2 deltaTime s
  rw [hs] at htrip
  cases htrip with
  | timeUp htime => exact Or.inr ⟨hnot rfl, s.ball, rfl, hsize⟩
  | free htime hnone => exact Or.inr ⟨hnot rfl, _, rfl, hsize⟩
  | score htime i hi hfirst heq => exact Or.inl ⟨⟨s, hhead, htime, hfirst, heq⟩, rfl⟩

end Goal

section Model
variable {F : Type} [Field F] [LinearOrder F] [FloorRing F] [Libm F]

/-- A client in a match, and the size that the ball had in the last `PACKET_INIT` processed. -/
structure Prediction (F : Type) where
  args : ClientData F
  initSize : Vector F
deriving DecidableEq

inductive ClientEvent (F : Type) where
  | frame (fuel : Nat) (deltaTime : I32) (inputDirection : Int)
  | receive (res : Int) (packet : Packet F)

def predictionStep (s : Prediction F) : ClientEvent F → Option (Prediction F)
  | .frame fuel deltaTime inputDirection =>
    if 0 ≤ deltaTime.toInt then
      (updateLocalState fuel s.args.localState deltaTime.toInt inputDirection).map fun localState =>
        { s with args := { s.args with localState := localState } }
    else none
  | .receive res packet =>
    some
      { args := (serverStateReceive s.args res packet).2
        initSize := if 0 < res ∧ packet.type = CpongPacket.init.code then
          packet.data.state.ball.size else s.initSize }

omit [Field F] [LinearOrder F] [FloorRing F] [Libm F] in
/-- The client as its first packet sets it up. -/
def predictionStart (packet : Packet F) (serverState : PongState F) : Option (Prediction F) :=
  (clientMain packet serverState).map fun args => ⟨args, packet.data.state.ball.size⟩

omit [Field F] [LinearOrder F] [FloorRing F] [Libm F] in
def BallSurvives (s : Prediction F) : Prop := s.args.localState.ball.size = s.initSize

/-- The frame predicts a goal. -/
def PredictsGoal (localState : PongState F) (deltaTime : I32) : Prop :=
  EndsInGoal ⟨trunc localState.boxSize.y, 0, 0, trunc localState.boxSize.x⟩ localState.player1
    localState.player2 localState.ball deltaTime.toInt

def NoGoalPredicted (s : Prediction F) : ClientEvent F → Prop
  | .frame _ deltaTime _ => PredictsGoal s.args.localState deltaTime → s.initSize = .zero
  | .receive _ _ => True

end Model

section Run
variable {F : Type} [Field F] [LinearOrder F] [FloorRing F] [Libm F] [IsStrictOrderedRing F]
  {s t : Prediction F}

theorem updateLocalState_ball {fuel : Nat} {localState st : PongState F} {deltaTime : I32}
    {inputDirection : Int}
    (h : updateLocalState fuel localState deltaTime.toInt inputDirection = some st) :
    PredictsGoal localState deltaTime ∧ st.ball = .zero ∨
      ¬ PredictsGoal localState deltaTime ∧ st.ball.size = localState.ball.size := by
  obtain ⟨advanced, hadvance, hres⟩ := Option.bind_eq_some_iff.mp h
  cases hres
  rcases ballAdvance_ball ⟨fuel, hadvance⟩ with ⟨hgoal, hnone⟩ | ⟨hgoal, upd, hupd, hsize⟩
  · exact Or.inl ⟨hgoal, by rw [hnone]; rfl⟩
  · exact Or.inr ⟨hgoal, by rw [hupd]; exact hsize⟩

omit [Field F] [LinearOrder F] [FloorRing F] [Libm F] [IsStrictOrderedRing F] in
theorem serverSnap_ball_size (localState server : PongState F) :
    (serverSnap localState server).ball.size = localState.ball.size := by
  unfold serverSnap
  dsimp only
  split <;> rfl

omit [Field F] [LinearOrder F] [FloorRing F] [Libm F] [IsStrictOrderedRing F] in
theorem ballSurvives_receive (hs : BallSurvives s) (res : Int) (packet : Packet F) :
    BallSurvives ⟨(serverStateReceive s.args res packet).2,
      if 0 < res ∧ packet.type = CpongPacket.init.code then packet.data.state.ball.size
      else s.initSize⟩ := by
  unfold BallSurvives serverStateReceive
  dsimp only
  by_cases hres : res ≤ 0
  · rw [if_pos hres, if_neg fun h => absurd h.1 hres.not_gt]
    exact hs
  by_cases hstate : packet.type = CpongPacket.state.code
  · have hinit : packet.type ≠ CpongPacket.init.code := by
      rw [hstate]
      decide
    rw [if_neg hres, if_pos hstate, if_neg fun h => hinit h.2]
    exact (serverSnap_ball_size _ _).trans hs
  by_cases hinit : packet.type = CpongPacket.init.code
  · rw [if_neg hres, if_neg hstate, if_pos hinit, if_pos ⟨not_le.mp hres, hinit⟩]
    rfl
  · rw [if_neg hres, if_neg hstate, if_neg hinit, if_neg fun h => hinit h.2]
    exact hs

/-- A frame keeps the ball unless it predicts a goal; a packet always keeps it. -/
theorem ballSurvives_step {l : ClientEvent F} (hs : BallSurvives s)
    (h : predictionStep s l = some t) : BallSurvives t ↔ NoGoalPredicted s l := by
  cases l with
  | frame fuel deltaTime inputDirection =>
    simp only [predictionStep] at h
    split at h
    · obtain ⟨localState, hlocal, rfl⟩ := Option.map_eq_some_iff.mp h
      unfold BallSurvives NoGoalPredicted
      rcases updateLocalState_ball hlocal with ⟨hgoal, hball⟩ | ⟨hgoal, hsize⟩
      · simp only [hball, hgoal, forall_const]
        exact eq_comm
      · simp only [hsize, hgoal, false_imp_iff, iff_true]
        exact hs
    · cases h
  | receive res packet =>
    cases h
    exact iff_of_true (ballSurvives_receive hs res packet) trivial

theorem predicted_ball_iff {packet : Packet F} {serverState : PongState F}
    {ls : List (ClientEvent F)} (hstart : predictionStart packet serverState = some s)
    (h : run predictionStep s ls = some t) :
    AllStates predictionStep BallSurvives s ls ↔ AllSteps predictionStep NoGoalPredicted s ls := by
  refine allStates_iff (I := fun _ => True) (fun _ _ _ _ _ => trivial)
    (fun s l t _ hs hst => ballSurvives_step hs hst) trivial ?_ h
  obtain ⟨args, hargs, rfl⟩ := Option.map_eq_some_iff.mp hstart
  unfold clientMain at hargs
  split at hargs
  · cases hargs
  · cases hargs
    rfl

end Run

/-- A packet of a match in which the ball is at `(x, 60)` and moves to the right. -/
def movingBall (type : CpongPacket) (x : ℚ) : Packet ℚ where
  type := type.code
  sync := 0
  size := 0
  data := ⟨{
    playerIds := ![1, 2]
    ownIdIndex := 0
    score := 0
    player1 := ⟨1 / 2, ⟨475, 160⟩, ⟨0, 0⟩, ⟨10, 50⟩⟩
    player2 := ⟨1 / 2, ⟨5, 160⟩, ⟨0, 0⟩, ⟨10, 50⟩⟩
    ball := ⟨1 / 20, ⟨x, 60⟩, ⟨1, 0⟩, ⟨10, 10⟩⟩
    boxSize := ⟨480, 320⟩ }⟩

def movingStart : Prediction ℚ :=
  ⟨⟨(movingBall .init 240).data.state, Packet.zero.data.state, 0, 0⟩, ⟨10, 10⟩⟩

theorem predictionStart_movingBall :
    predictionStart (movingBall .init 240) (Packet.zero : Packet ℚ).data.state =
      some movingStart := by
  decide +kernel

theorem predicted_ball_midField :
    AllStates predictionStep BallSurvives movingStart [.frame 1 16 1] := by
  have hrun : ∃ t, run predictionStep movingStart [.frame 1 16 1] = some t :=
    Option.isSome_iff_exists.mp (by decide +kernel)
  obtain ⟨t, ht⟩ := hrun
  refine (predicted_ball_iff predictionStart_movingBall ht).mpr ⟨?_, fun _ _ => trivial⟩
  intro hgoal
  have hfree : (ballAdvance 1 ⟨320, 0, 0, 480⟩ movingStart.args.localState.player1
      movingStart.args.localState.player2 movingStart.args.localState.ball 16).map
        (fun r => r.ballUpd.isSome) = some true := by
    decide +kernel
  obtain ⟨r, hr, hsome⟩ := Option.map_eq_some_iff.mp hfree
  have hwall : (⟨trunc movingStart.args.localState.boxSize.y, 0, 0,
      trunc movingStart.args.localState.boxSize.x⟩ : Wall) = ⟨320, 0, 0, 480⟩ := by
    decide +kernel
  unfold PredictsGoal at hgoal
  rw [hwall] at hgoal
  rw [hgoal.ballUpd ⟨1, hr⟩] at hsome
  cases hsome

/-- The client predicts a goal that the server does not declare. From then on its ball has no
size, whatever the server sends within the round. -/
theorem predicted_ball_destroyed :
    predictionStart (movingBall .init 240) (Packet.zero : Packet ℚ).data.state =
        some movingStart ∧
      ∃ t, run predictionStep movingStart [.receive 46 (movingBall .state 474), .frame 1 2 0,
        .receive 46 (movingBall .state 240)] = some t ∧
      t.args.localState.ball.size = ⟨0, 0⟩ ∧ t.initSize = ⟨10, 10⟩ ∧
      ¬ AllStates predictionStep BallSurvives movingStart
        [.receive 46 (movingBall .state 474), .frame 1 2 0, .receive 46 (movingBall .state 240)] := by
  have hrun : (run predictionStep movingStart [.receive 46 (movingBall .state 474), .frame 1 2 0,
      .receive 46 (movingBall .state 240)]).map
        (fun t => (t.args.localState.ball.size, t.initSize)) = some (⟨0, 0⟩, ⟨10, 10⟩) := by
    decide +kernel
  obtain ⟨t, ht, hsizes⟩ := Option.map_eq_some_iff.mp hrun
  obtain ⟨hsize, hinit⟩ := Prod.mk.inj hsizes
  refine ⟨predictionStart_movingBall, t, ht, hsize, hinit, ?_⟩
  intro hall
  have hkept : t.args.localState.ball.size = t.initSize := hall _ t (List.prefix_refl _) ht
  rw [hsize, hinit] at hkept
  exact absurd (congrArg Vector.x hkept) (by norm_num)

end CPong
