import CPong.BallContainment
import CPong.PaddlePrediction

/-!
# What the wire can carry

A float goes over the wire as a whole number of ten-thousandths in an `int32_t`. Nothing keeps
a paddle in the field: its place is bounded only by the input that its player sends.
-/

namespace CPong

set_option autoImplicit false

open Lib (trunc)
open Lib.Loop (Head)
open Lib.System
open Lib.Memory
open Lib.Words

section Rooms

/-- The server in a match. `taken` is the input that the ticks of the round have applied, and
`sent` has the packets with the state that the server then held. -/
structure PlayState (F : Type) where
  globals : Globals F
  taken : Fin 2 → Int
  sent : List (Packet F × PongState F)

inductive PlayEvent (F : Type) where
  | tick (tick : Tick)
  | input (i : Fin 2) (res : Int) (packet : Packet F)

section
variable {F : Type} [Field F] [LinearOrder F] [FloorRing F] [Libm F]

/-- A round begins with its `PACKET_INIT`. -/
def takenAfter (taken : Fin 2 → Int) (g : Globals F) (packet : Packet F) : Fin 2 → Int :=
  if packet.type = CpongPacket.init.code then 0 else fun i => taken i + (inputOf g i).toInt

def playStep (room : Room) (s : PlayState F) : PlayEvent F → Option (PlayState F)
  | .tick tick =>
    (sendState tick s.globals).map fun (packet, g) =>
      ⟨g, takenAfter s.taken s.globals packet, s.sent ++ [(packet, g.state)]⟩
  | .input i res packet =>
    some { s with globals := (onInputReady s.globals (room.clients i) res packet).2 }

def playStart (room : Room) (rands : Rands) (g : Globals F) : PlayState F :=
  let (packets, g) := startPongGame room rands g
  ⟨g, 0, packets.map fun p => (p.2, g.state)⟩

end

end Rooms

section Fields

def FitsWire (x : ℝ) : Prop := |x * 10000| < 2 ^ 31

/-- The paddles and the ball are shown where they are held, up to the precision of the wire. -/
structure Shows (shown held : PongState ℝ) : Prop where
  paddles : ∀ i, |(playerOf shown i).pos.y - (playerOf held i).pos.y| < 1 / 10000
  ballX : |shown.ball.pos.x - held.ball.pos.x| < 1 / 10000
  ballY : |shown.ball.pos.y - held.ball.pos.y| < 1 / 10000

/-- Every float of the packet can be converted, and any client decodes from its bytes what the
server holds. -/
def Delivered (packet : Packet ℝ) (held : PongState ℝ) : Prop :=
  ∃ k, packet.type = k.code ∧ (∀ x ∈ carriedFloats packet.data.state k, FitsWire x) ∧
    ∀ (server client : Host ℝ) (r : Packet ℝ) (block : List Byte), block.length = maxPacketSize →
      ∃ barr q barr', packetSerialize server (binarrNew block) packet = .ok (true, barr) ∧
        packetDeserialize client r ⟨barr.buf.take barr.size, barr.size, 0⟩ =
          .ok (true, q, barr') ∧
        Shows q.data.state held

theorem fitsWire_of_le {x : ℝ} (h : |x| ≤ 1000) : FitsWire x := by
  unfold FitsWire
  rw [abs_mul]
  norm_num
  linarith

theorem abs_quantize_sub_lt (x : ℝ) : |quantize x - x| < 1 / 10000 := by
  have hscale : quantize x - x = ((trunc (x * 10000) : ℝ) - x * 10000) / 10000 := by
    unfold quantize
    ring
  rw [hscale, abs_div, abs_of_pos (by norm_num : (0 : ℝ) < 10000)]
  exact div_lt_div_of_pos_right (Lib.abs_trunc_sub_lt _) (by norm_num)

end Fields

section Round

/-- Player `i` has its paddle where the input taken in has moved it. -/
structure PaddleAt (i : Fin 2) (taken : Int) (paddle : GameObj ℝ) : Prop where
  speed : paddle.speed = 0.5
  pos : paddle.pos = ⟨if i = 0 then 475 else 5, 160 + 0.5 * taken⟩
  size : paddle.size = ⟨10, 50⟩
  velocity : paddle.velocity.x = 0 ∧ |paddle.velocity.y| ≤ 0.5

structure BallInField (ball : GameObj ℝ) : Prop where
  inside : Inside fieldWall ball
  size : ball.size = ⟨10, 10⟩
  speed : speedOf ball.velocity ≤ 0.64

structure FieldState (taken : Fin 2 → Int) (state : PongState ℝ) : Prop where
  boxSize : state.boxSize = ⟨480, 320⟩
  paddle : ∀ i, PaddleAt i (taken i) (playerOf state i)
  ball : BallInField state.ball

/-- The input taken in leaves the paddles where the wire can tell. -/
def Near (taken : Fin 2 → Int) : Prop := ∀ i, FitsWire (160 + 0.5 * taken i)

theorem near_zero : Near 0 := by
  intro i
  apply fitsWire_of_le
  norm_num

theorem sq_direction (n : Nat) : (((n % 2 : Nat) * 2 - 1 : Int) : ℝ) ^ 2 = 1 := by
  rcases Nat.mod_two_eq_zero_or_one n with h | h
  · rw [h]
    norm_num
  · rw [h]
    norm_num

/-- A new ball has its speed of 0.05, whatever its direction. -/
theorem speedOf_initBall (ball : GameObj ℝ) (rands : Rands) :
    speedOf (initBall ball rands).velocity ≤ 0.64 := by
  have hx := sq_direction rands.dirX
  have hy := sq_direction rands.dirY
  simp only [initBall, vectorRandomAngle]
  generalize (((rands.dirX % 2 : Nat) * 2 - 1 : Int) : ℝ) = dirX at hx
  generalize (((rands.dirY % 2 : Nat) * 2 - 1 : Int) : ℝ) = dirY at hy
  generalize (_ + 0.1 * _ : ℝ) = angle
  have hcircle : Real.cos angle ^ 2 + Real.sin angle ^ 2 = 1 := Real.cos_sq_add_sin_sq angle
  have hsq : Real.cos angle * dirX * 0.05 * (Real.cos angle * dirX * 0.05) +
      Real.sin angle * dirY * 0.05 * (Real.sin angle * dirY * 0.05) = 0.05 ^ 2 := by
    calc Real.cos angle * dirX * 0.05 * (Real.cos angle * dirX * 0.05) +
          Real.sin angle * dirY * 0.05 * (Real.sin angle * dirY * 0.05)
        = (Real.cos angle ^ 2 * dirX ^ 2 + Real.sin angle ^ 2 * dirY ^ 2) * 0.05 ^ 2 := by ring
      _ = 0.05 ^ 2 := by rw [hx, hy, mul_one, mul_one, hcircle, one_mul]
  change Real.sqrt (Real.cos angle * dirX * 0.05 * (Real.cos angle * dirX * 0.05) +
    Real.sin angle * dirY * 0.05 * (Real.sin angle * dirY * 0.05)) ≤ 0.64
  rw [hsq, Real.sqrt_sq (by norm_num)]
  norm_num

theorem FieldState.initGame (state : PongState ℝ) (rands : Rands) :
    FieldState 0 (initGame state rands) where
  boxSize := rfl
  paddle i := by
    match i with
    | 0 =>
      refine ⟨rfl, ?_, rfl, rfl, ?_⟩
      · change (⟨480 - 10 / 2, 320 / 2⟩ : Vector ℝ) = _
        norm_num
      · change |(0 : ℝ)| ≤ 0.5
        norm_num
    | 1 =>
      refine ⟨rfl, ?_, rfl, rfl, ?_⟩
      · change (⟨10 / 2, 320 / 2⟩ : Vector ℝ) = _
        norm_num
      · change |(0 : ℝ)| ≤ 0.5
        norm_num
  ball := by
    refine ⟨?_, rfl, speedOf_initBall state.ball rands⟩
    change Inside fieldWall ⟨0.05, ⟨480 / 2, 320 / 2⟩, _, ⟨10, 10⟩⟩
    norm_num [Inside, BetweenGoals, BetweenWalls, fieldWall]

theorem Inside.fitsWire {ball : GameObj ℝ} (h : Inside fieldWall ball)
    (hsize : ball.size = ⟨10, 10⟩) : FitsWire ball.pos.x ∧ FitsWire ball.pos.y := by
  obtain ⟨⟨hleft, hright⟩, hdown, hup⟩ := h
  simp only [hsize, fieldWall] at hleft hright hdown hup
  norm_num at hleft hright hdown hup
  constructor
  · apply fitsWire_of_le
    rw [abs_le]
    constructor <;> linarith
  · apply fitsWire_of_le
    rw [abs_le]
    constructor <;> linarith

theorem FieldState.fitsWire {taken : Fin 2 → Int} {state : PongState ℝ} (h : FieldState taken state)
    (hnear : Near taken) {k : CpongPacket} : ∀ x ∈ carriedFloats state k, FitsWire x := by
  have h0 : PaddleAt 0 (taken 0) state.player1 := h.paddle 0
  have h1 : PaddleAt 1 (taken 1) state.player2 := h.paddle 1
  have hy0 : FitsWire state.player1.pos.y := by
    rw [h0.pos]
    exact hnear 0
  have hy1 : FitsWire state.player2.pos.y := by
    rw [h1.pos]
    exact hnear 1
  have hsize (i : Fin 2) : (playerOf state i).size = ⟨10, 50⟩ := (h.paddle i).size
  have hvelocity (v : ℝ) (hv : |v| ≤ 0.64) : FitsWire v := fitsWire_of_le (hv.trans (by norm_num))
  have hvx : FitsWire state.ball.velocity.x :=
    hvelocity _ ((abs_x_le_speedOf _).trans h.ball.speed)
  have hvy : FitsWire state.ball.velocity.y :=
    hvelocity _ ((abs_y_le_speedOf _).trans h.ball.speed)
  have hmoves (i : Fin 2) : FitsWire (playerOf state i).velocity.y :=
    hvelocity _ ((h.paddle i).velocity.2.trans (by norm_num))
  obtain ⟨hbx, hby⟩ := h.ball.inside.fitsWire h.ball.size
  cases k with
  | ping => exact fun _ hx => nomatch hx
  | input => exact fun _ hx => nomatch hx
  | init =>
    simp only [carriedFloats, List.forall_mem_cons, List.not_mem_nil, false_implies, implies_true,
      h0.pos, h1.pos, h0.size, h1.size, h.ball.size, h.boxSize, h0.velocity.1, h1.velocity.1]
    refine ⟨?_, hnear 0, ?_, hmoves 0, ?_, ?_, ?_, hnear 1, ?_, hmoves 1, ?_, ?_, hbx, hby, hvx,
      hvy, ?_, ?_, ?_, ?_, trivial⟩ <;>
    · apply fitsWire_of_le
      norm_num
  | state =>
    simp only [carriedFloats, List.forall_mem_cons, List.not_mem_nil, false_implies, implies_true,
      h0.pos, h1.pos, h0.velocity.1, h1.velocity.1]
    refine ⟨hnear 0, ?_, hmoves 0, hnear 1, ?_, hmoves 1, hbx, hby, hvx, hvy, trivial⟩ <;>
    · apply fitsWire_of_le
      norm_num

theorem shows_packetImage {packet r : Packet ℝ} {held : PongState ℝ} {k : CpongPacket}
    (e e' : Endian) (hk : k = .init ∨ k = .state)
    (hheld : ∃ own, packet.data.state = { held with ownIdIndex := own }) :
    Shows (packetImage quantize e e' k packet r).data.state held := by
  obtain ⟨own, hheld⟩ := hheld
  unfold packetImage
  rw [hheld]
  rcases hk with rfl | rfl
  · refine ⟨fun i => ?_, abs_quantize_sub_lt _, abs_quantize_sub_lt _⟩
    match i with
    | 0 => exact abs_quantize_sub_lt _
    | 1 => exact abs_quantize_sub_lt _
  · refine ⟨fun i => ?_, abs_quantize_sub_lt _, abs_quantize_sub_lt _⟩
    match i with
    | 0 => exact abs_quantize_sub_lt _
    | 1 => exact abs_quantize_sub_lt _

/-- A packet that carries the state as it is held is delivered if its floats fit. -/
theorem delivered_of_fitsWire {packet : Packet ℝ} {held : PongState ℝ} {k : CpongPacket}
    (htype : packet.type = k.code) (hk : k = .init ∨ k = .state)
    (hheld : ∃ own, packet.data.state = { held with ownIdIndex := own })
    (hfits : ∀ x ∈ carriedFloats packet.data.state k, FitsWire x) : Delivered packet held := by
  refine ⟨k, htype, hfits, ?_⟩
  intro server client r block hblock
  have hcode : CpongPacket.ofCode packet.type = some k := htype ▸ CpongPacket.ofCode_code k
  obtain ⟨barr, hser, -, -, hread⟩ := packetSerialize_read server client hcode r hblock
  rw [packetImage_receivedFloat hfits] at hread
  obtain ⟨barr', hread⟩ := hread [] barr.size 0
  rw [List.append_nil] at hread
  exact ⟨barr, _, barr', hser, hread, shows_packetImage _ _ hk hheld⟩

end Round

section Ball
variable {wall : Wall} {paddle1 paddle2 ball : GameObj ℝ} {deltaTime : Int}

/-- The size of the ball stays, and its speed is at most 0.64 if it was. -/
theorem head_speed (hspeed : speedOf ball.velocity ≤ 0.64) {s : AdvanceState ℝ}
    (hs : Head (advanceBody wall paddle1 paddle2 deltaTime) (advanceStart ball) s) :
    s.ball.size = ball.size ∧ speedOf s.ball.velocity ≤ 0.64 := by
  refine Head.invariant (I := fun s => s.ball.size = ball.size ∧ speedOf s.ball.velocity ≤ 0.64)
    ⟨rfl, hspeed⟩ ?_ hs
  intro a b _ hI hab
  have htrip := advanceBody_trip wall paddle1 paddle2 deltaTime a
  rw [hab] at htrip
  cases htrip with
  | bounce htime c hfirst hne hhit =>
    refine ⟨by simpa using hI.1, ?_⟩
    obtain ⟨k, hk, hvelocity, hle⟩ :=
      ballBounceOnCollision_velocity { a.ball with pos := c.pos } c.normal
    dsimp only at hvelocity hle ⊢
    rw [hvelocity, speedOf_scale _ (by linarith), speedOf_reflect]
    exact hle.trans (max_le hI.2 le_rfl)

theorem ballAdvance_speed (hspeed : speedOf ball.velocity ≤ 0.64) {fuel : Nat} {r : Advanced ℝ}
    (hrun : ballAdvance fuel wall paddle1 paddle2 ball deltaTime = some r) {upd : GameObj ℝ}
    (hupd : r.ballUpd = some upd) : upd.size = ball.size ∧ speedOf upd.velocity ≤ 0.64 := by
  obtain ⟨s, hs, hout⟩ := Lib.Loop.evals_iff.mp ⟨fuel, hrun⟩
  have hhead := head_speed hspeed hs
  have htrip := advanceBody_trip wall paddle1 paddle2 deltaTime s
  rw [hout] at htrip
  cases htrip with
  | timeUp hover =>
    cases hupd
    exact hhead
  | free htime hnone =>
    cases hupd
    exact hhead
  | score htime i hi hfirst heq => cases hupd

end Ball

/-- The ball of the tick is kept in the field, in every trip of the loop of `ball_advance`. -/
def KeepsBall (s : PlayState ℝ) : PlayEvent ℝ → Prop
  | .tick tick =>
    let paddle1 := steer s.globals.state.player1 s.globals.input1
    let paddle2 := steer s.globals.state.player2 s.globals.input2
    ∀ a, Head (advanceBody fieldWall paddle1 paddle2 tick.deltaTime.toInt)
      (advanceStart s.globals.state.ball) a → a.passedTime < tick.deltaTime.toInt →
        KeepsIn fieldWall paddle1 paddle2 tick.deltaTime.toInt a
  | .input .. => True

/-- The step takes in no more input than leaves the paddles where the wire can tell. -/
def TakesNear (room : Room) (s : PlayState ℝ) (l : PlayEvent ℝ) : Prop :=
  ∀ t, playStep room s l = some t → Near t.taken

structure InRange (room : Room) (s : PlayState ℝ) (l : PlayEvent ℝ) : Prop where
  keeps : KeepsBall s l
  takes : TakesNear room s l

section Step
variable {room : Room} {s t : PlayState ℝ}

theorem FieldState.ball_advance {taken : Fin 2 → Int} {tick : Tick} {ball : GameObj ℝ}
    (h : FieldState taken s.globals.state) (hkeeps : KeepsBall s (.tick tick))
    (hadvance : sendStateAdvance tick (sendStateInputs s.globals).1 (sendStateInputs s.globals).2 =
      some (-1, moveObjects (sendStateInputs s.globals).1 ball (sendStateInputs s.globals).2)) :
    BallInField ball := by
  obtain ⟨advanced, hrun, hres⟩ := Option.bind_eq_some_iff.mp hadvance
  have hwall : (⟨trunc s.globals.state.boxSize.y, 0, 0, trunc s.globals.state.boxSize.x⟩ : Wall) =
      fieldWall := by
    rw [h.boxSize]
    simp [fieldWall]
  change ballAdvance tick.fuel
    ⟨trunc s.globals.state.boxSize.y, 0, 0, trunc s.globals.state.boxSize.x⟩ _ _ _ _ = _ at hrun
  rw [hwall] at hrun
  simp only [Option.pure_def, Option.some.injEq, Prod.mk.injEq] at hres
  obtain ⟨hscored, hmoved⟩ := hres
  have hball : advanced.ballUpd.getD .zero = ball := congrArg (fun g => g.state.ball) hmoved
  rcases ballAdvance_inside h.ball.inside hkeeps hrun with hzero | hone | ⟨upd, hupd, hinside⟩
  · rw [hzero, Option.getD_some] at hscored
    exact absurd hscored (by decide)
  · rw [hone, Option.getD_some] at hscored
    exact absurd hscored (by decide)
  · obtain ⟨hsize, hspeed⟩ := ballAdvance_speed h.ball.speed hrun hupd
    rw [hupd, Option.getD_some] at hball
    rw [← hball]
    exact ⟨hinside, hsize.trans h.ball.size, hspeed⟩

/-- A tick that takes in the smallest `int` drives the paddle out of what the wire can tell. -/
theorem Near.input_ne_intMin {taken : Fin 2 → Int} {acc : I32} {i : Fin 2} (hnear : Near taken)
    (hnext : FitsWire (160 + 0.5 * ((taken i + acc.toInt : Int) : ℝ))) :
    acc ≠ BitVec.intMin 32 := by
  rintro rfl
  have hbefore := abs_lt.mp (hnear i)
  have hafter := abs_lt.mp hnext
  have hmin : (BitVec.intMin 32).toInt = -2 ^ 31 := by decide
  rw [hmin] at hafter
  push_cast at hafter
  linarith [hbefore.1, hbefore.2, hafter.1]

theorem PaddleAt.moved {i : Fin 2} {taken : Int} {paddle : GameObj ℝ} {acc : I32}
    (h : PaddleAt i taken paddle) (hacc : acc ≠ BitVec.intMin 32) :
    PaddleAt i (taken + acc.toInt) (linearMove (steer paddle acc) acc.abs.toInt) := by
  refine ⟨h.speed, Vector.ext ?_ ?_, h.size, h.velocity.1, ?_⟩
  · rw [linearMove_pos_x]
    simp only [steer, h.velocity.1, h.pos, zero_mul, add_zero]
  · rw [steer_linearMove h.speed hacc, h.pos]
    push_cast
    ring
  · have hdir : |(getInputAccDirection acc : ℝ)| ≤ 1 := by
      unfold getInputAccDirection
      split_ifs <;> norm_num
    rw [linearMove_velocity]
    simp only [steer, h.speed]
    rw [abs_mul, abs_of_pos (by norm_num : (0 : ℝ) < 0.5)]
    linarith

/-- A tick without a score moves the paddles by what it takes in and keeps the ball. -/
theorem FieldState.moved {taken : Fin 2 → Int} {tick : Tick} {ball : GameObj ℝ}
    (h : FieldState taken s.globals.state) (hnear : Near taken) (hkeeps : KeepsBall s (.tick tick))
    (hnext : Near fun i => taken i + (inputOf s.globals i).toInt)
    (hadvance : sendStateAdvance tick (sendStateInputs s.globals).1 (sendStateInputs s.globals).2 =
      some (-1, moveObjects (sendStateInputs s.globals).1 ball (sendStateInputs s.globals).2)) :
    FieldState (fun i => taken i + (inputOf s.globals i).toInt)
      (moveObjects (sendStateInputs s.globals).1 ball (sendStateInputs s.globals).2).state where
  boxSize := h.boxSize
  paddle i := by
    rw [playerOf_moveObjects]
    exact (h.paddle i).moved (hnear.input_ne_intMin (hnext i))
  ball := h.ball_advance hkeeps hadvance

structure PlayInv (s : PlayState ℝ) : Prop where
  near : Near s.taken
  field : FieldState s.taken s.globals.state
  sent : ∀ p ∈ s.sent, Delivered p.1 p.2

theorem PlayInv.next {l : PlayEvent ℝ} (h : PlayInv s) (hrange : InRange room s l)
    (hst : playStep room s l = some t) : PlayInv t := by
  have hnear := hrange.takes t hst
  cases l with
  | tick tick =>
    obtain ⟨⟨packet, g⟩, htick, rfl⟩ := Option.map_eq_some_iff.mp hst
    obtain ⟨scoredIndex, ball, hadvance, ⟨rfl, rfl, rfl⟩ | ⟨j, -, rfl, rfl⟩⟩ :=
      sendState_cases htick
    · have hfield := h.field.moved h.near hrange.keeps hnear hadvance
      refine ⟨hnear, hfield, List.forall_mem_append.mpr ⟨h.sent, List.forall_mem_singleton.mpr ?_⟩⟩
      exact delivered_of_fitsWire (k := .state) rfl (Or.inr rfl) ⟨_, rfl⟩ (hfield.fitsWire hnear)
    · have hfield : FieldState 0 (scorePoint j tick.rands (moveObjects
          (sendStateInputs s.globals).1 ball (sendStateInputs s.globals).2)).state :=
        ⟨rfl, (FieldState.initGame _ tick.rands).paddle, (FieldState.initGame _ tick.rands).ball⟩
      refine ⟨near_zero, hfield,
        List.forall_mem_append.mpr ⟨h.sent, List.forall_mem_singleton.mpr ?_⟩⟩
      exact delivered_of_fitsWire (k := .init) rfl (Or.inl rfl) ⟨_, rfl⟩ (hfield.fitsWire near_zero)
  | input i res packet =>
    cases hst
    refine ⟨h.near, ?_, h.sent⟩
    have hsame := onInputReady_state s.globals (room.clients i) res packet
    change FieldState s.taken (onInputReady s.globals (room.clients i) res packet).2.state
    rw [hsame]
    exact h.field

theorem PlayInv.start (room : Room) (rands : Rands) (g : Globals ℝ) :
    PlayInv (playStart room rands g) := by
  have hfield : FieldState 0 (playStart room rands g).globals.state :=
    FieldState.initGame _ rands
  refine ⟨near_zero, hfield, ?_⟩
  have hsent (own : I32) :
      Delivered (initPacket (playStart room rands g).globals own)
        (playStart room rands g).globals.state := by
    have hown : FieldState 0 { (playStart room rands g).globals.state with ownIdIndex := own } :=
      ⟨hfield.boxSize, hfield.paddle, hfield.ball⟩
    exact delivered_of_fitsWire (k := .init) rfl (Or.inl rfl) ⟨own, rfl⟩ (hown.fitsWire near_zero)
  intro p hp
  simp only [playStart, startPongGame, List.map_cons, List.map_nil, List.mem_cons,
    List.not_mem_nil, or_false] at hp
  rcases hp with rfl | rfl
  · exact hsent 0
  · exact hsent 1

/-- While the players' input leaves their paddles where the wire can tell and the ball is kept
in the field, everything that is sent is delivered. -/
theorem coordinates_delivered {rands : Rands} {g : Globals ℝ} {ls : List (PlayEvent ℝ)}
    (hrange : AllSteps (playStep room) (InRange room) (playStart room rands g) ls)
    (h : run (playStep room) (playStart room rands g) ls = some s) :
    ∀ p ∈ s.sent, Delivered p.1 p.2 := by
  have hinv := invariant_of_allSteps (fun _ _ _ hs hl hst => PlayInv.next hs hl hst)
    (PlayInv.start room rands g) hrange h
  exact hinv.sent

end Step

section First
variable {ball : GameObj ℝ} {c : CollInfo ℝ}

/-- A ball in the middle of the field reaches no line at its edges in one millisecond. -/
theorem not_hit_middle {xs ys : List Int} (hpos : ball.pos = ⟨240, 160⟩)
    (hsize : ball.size = ⟨10, 10⟩) (hspeed : speedOf ball.velocity ≤ 0.64)
    (hxs : ∀ x ∈ xs, x ≤ 10 ∨ 470 ≤ x) (hys : ∀ y ∈ ys, y ≤ 135 ∨ 185 ≤ y) :
    ¬ Hit ball 1 xs ys c := by
  have hway (p v τ d : ℝ) (l : Int) (hτ : 0 < τ ∧ τ ≤ 1) (hv : |v| ≤ 0.64) (hd : |d| = 1)
      (hreach : p + v * (τ * (1 : Int)) = l - d * 10 / 2) : |(l : ℝ) - p| ≤ 6 := by
    have hmove : |v * τ| ≤ 0.64 := by
      rw [abs_mul, abs_of_pos hτ.1]
      nlinarith [abs_nonneg v, hτ.1, hτ.2]
    have hside : |d * 5| = 5 := by
      rw [abs_mul, hd]
      norm_num
    have hsplit : (l : ℝ) - p = v * τ + d * 5 := by
      push_cast at hreach
      linarith
    calc |(l : ℝ) - p| = |v * τ + d * 5| := by rw [hsplit]
      _ ≤ |v * τ| + |d * 5| := abs_add_le _ _
      _ ≤ 6 := by linarith
  have hdir (v : ℝ) : |(dirOf v : ℝ)| = 1 := by
    unfold dirOf
    split_ifs <;> norm_num
  rintro (⟨x, hx, hhit⟩ | ⟨y, hy, hhit⟩)
  · have hreach := hhit.reach
    rw [hhit.pos, contactX, hsize, hpos] at hreach
    have hnear := abs_le.mp (hway _ _ _ _ x hhit.toi ((abs_x_le_speedOf _).trans hspeed)
      (hdir _) hreach)
    rcases hxs x hx with hle | hge
    · have hcast : (x : ℝ) ≤ 10 := by exact_mod_cast hle
      linarith [hnear.1]
    · have hcast : (470 : ℝ) ≤ x := by exact_mod_cast hge
      linarith [hnear.2]
  · have hreach := hhit.reach
    rw [hhit.pos, contactY, hsize, hpos] at hreach
    have hnear := abs_le.mp (hway _ _ _ _ y hhit.toi ((abs_y_le_speedOf _).trans hspeed)
      (hdir _) hreach)
    rcases hys y hy with hle | hge
    · have hcast : (y : ℝ) ≤ 135 := by exact_mod_cast hle
      linarith [hnear.1]
    · have hcast : (185 : ℝ) ≤ y := by exact_mod_cast hge
      linarith [hnear.2]

/-- The paddles are where a round begins. -/
structure AtRest (paddle1 paddle2 : GameObj ℝ) : Prop where
  pos1 : paddle1.pos = ⟨475, 160⟩
  pos2 : paddle2.pos = ⟨5, 160⟩
  size1 : paddle1.size = ⟨10, 50⟩
  size2 : paddle2.size = ⟨10, 50⟩

theorem collide_middle {paddle1 paddle2 : GameObj ℝ} (hrest : AtRest paddle1 paddle2)
    (hpos : ball.pos = ⟨240, 160⟩) (hsize : ball.size = ⟨10, 10⟩)
    (hspeed : speedOf ball.velocity ≤ 0.64) :
    (collide fieldWall paddle1 paddle2 1 (advanceStart ball)).first.1 = false := by
  have hnone {xs ys : List Int} {c : CollInfo ℝ} (hxs : ∀ x ∈ xs, x ≤ 10 ∨ 470 ≤ x)
      (hys : ∀ y ∈ ys, y ≤ 135 ∨ 185 ≤ y) : ¬ Hit ball 1 xs ys c :=
    not_hit_middle hpos hsize hspeed hxs hys
  have hx1 : xFaces paddle1 = [470, 480] := by
    norm_num [xFaces, aabbGetBoundaries, hrest.pos1, hrest.size1]
  have hy1 : yFaces paddle1 = [185, 135] := by
    norm_num [yFaces, aabbGetBoundaries, hrest.pos1, hrest.size1]
  have hx2 : xFaces paddle2 = [0, 10] := by
    norm_num [xFaces, aabbGetBoundaries, hrest.pos2, hrest.size2]
  have hy2 : yFaces paddle2 = [185, 135] := by
    norm_num [yFaces, aabbGetBoundaries, hrest.pos2, hrest.size2]
  by_contra hfound
  rw [Bool.not_eq_false] at hfound
  obtain ⟨hmem, hvalid⟩ := Collisions.first_hit hfound
  rcases hmem with hfirst | hfirst | hfirst | hfirst
  · rw [hfirst] at hvalid
    have hhit := aabbCollide_hit hvalid
    rw [hx1, hy1] at hhit
    exact hnone (by decide) (by decide) hhit
  · rw [hfirst] at hvalid
    have hhit := aabbCollide_hit hvalid
    rw [hx2, hy2] at hhit
    exact hnone (by decide) (by decide) hhit
  · rw [hfirst] at hvalid
    exact hnone (by decide) (by decide) (ballWallCollide_hit hvalid)
  · rw [hfirst] at hvalid
    have hhit := ballScoreCollide_hit hvalid
    have hrest : trunc (((1 : Int) : ℝ) - (advanceStart ball).passedTime) = 1 := by
      norm_num [advanceStart]
    rw [hrest] at hhit
    exact hnone (by decide) (by decide) hhit

theorem advanceBody_middle {paddle1 paddle2 : GameObj ℝ} (hrest : AtRest paddle1 paddle2)
    (hpos : ball.pos = ⟨240, 160⟩) (hsize : ball.size = ⟨10, 10⟩)
    (hspeed : speedOf ball.velocity ≤ 0.64) :
    advanceBody fieldWall paddle1 paddle2 1 (advanceStart ball) =
      .inr ⟨some (linearMove ball 1), some (-1)⟩ := by
  have hnone := collide_middle hrest hpos hsize hspeed
  have htime : (advanceStart ball).passedTime < (1 : Int) := by norm_num [advanceStart]
  have hleft : trunc (((1 : Int) : ℝ) - (advanceStart ball).passedTime) = 1 := by
    norm_num [advanceStart]
  unfold advanceBody
  rw [if_pos htime, hleft]
  exact if_pos (by rw [hnone]; decide)

theorem keepsIn_middle {paddle1 paddle2 : GameObj ℝ} (hrest : AtRest paddle1 paddle2)
    (hpos : ball.pos = ⟨240, 160⟩) (hsize : ball.size = ⟨10, 10⟩)
    (hspeed : speedOf ball.velocity ≤ 0.64) {s : AdvanceState ℝ}
    (hs : Head (advanceBody fieldWall paddle1 paddle2 1) (advanceStart ball) s) :
    KeepsIn fieldWall paddle1 paddle2 1 s := by
  rw [hs.eq_of_inr (advanceBody_middle hrest hpos hsize hspeed)]
  refine (keepsIn_of_free (collide_middle hrest hpos hsize hspeed)).mpr (Or.inr ⟨?_, ?_⟩)
  · rintro ⟨-, hpress⟩
    rw [contactY_wallAhead] at hpress
    simp only [advanceStart, hpos, hsize, boundAhead, fieldWall] at hpress
    split at hpress <;> norm_num at hpress
  · rintro ⟨-, hpress⟩
    rw [contactX_goalAhead] at hpress
    simp only [advanceStart, hpos, hsize, boundAhead, fieldWall] at hpress
    split at hpress <;> norm_num at hpress

end First

/-- The first player holds a key for `inputAccMs` milliseconds, then the server ticks. -/
noncomputable def oneInput (inputAccMs : I32) : List (PlayEvent ℝ) :=
  [.input 0 10 ⟨CpongPacket.input.code, 0, 4, Packet.zero.data.setInputAccMs inputAccMs⟩,
    .tick ⟨1, 1, 0, ⟨0, 0, 0⟩⟩]

noncomputable def matchStart : PlayState ℝ := playStart ⟨![1, 2]⟩ ⟨0, 0, 0⟩ Globals.zero

noncomputable def afterInput (inputAccMs : I32) : PlayState ℝ :=
  { matchStart with globals := { matchStart.globals with input1 := inputAccMs } }

theorem playStep_oneInput (inputAccMs : I32) :
    playStep ⟨![1, 2]⟩ matchStart (.input 0 10 ⟨CpongPacket.input.code, 0, 4,
      Packet.zero.data.setInputAccMs inputAccMs⟩) = some (afterInput inputAccMs) := by
  simp [playStep, matchStart, afterInput, playStart, startPongGame, onInputReady,
    onInputReadyAccumulate, Globals.zero, PacketData.setInputAccMs, PacketData.inputAccMs,
    PacketData.setWord, initGame]

theorem atRest_afterInput (inputAccMs : I32) :
    AtRest (sendStateInputs (afterInput inputAccMs).globals).2.state.player1
      (sendStateInputs (afterInput inputAccMs).globals).2.state.player2 := by
  refine ⟨?_, ?_, rfl, rfl⟩
  · change (⟨480 - 10 / 2, 320 / 2⟩ : Vector ℝ) = _
    norm_num
  · change (⟨10 / 2, 320 / 2⟩ : Vector ℝ) = _
    norm_num

theorem ballPos_matchStart : matchStart.globals.state.ball.pos = ⟨240, 160⟩ := by
  change (⟨480 / 2, 320 / 2⟩ : Vector ℝ) = _
  norm_num

/-- The server after the tick: nothing is hit and nobody scores. -/
noncomputable def afterTick (inputAccMs : I32) : Globals ℝ :=
  let (upds, g) := sendStateInputs (afterInput inputAccMs).globals
  moveObjects upds (linearMove matchStart.globals.state.ball 1) g

theorem speed_matchStart : speedOf matchStart.globals.state.ball.velocity ≤ 0.64 :=
  speedOf_initBall .zero ⟨0, 0, 0⟩

theorem sendState_afterInput (inputAccMs : I32) :
    sendState ⟨1, 1, 0, ⟨0, 0, 0⟩⟩ (afterInput inputAccMs).globals =
      some (sendStatePacket .state (afterTick inputAccMs), afterTick inputAccMs) := by
  have hbody := advanceBody_middle (atRest_afterInput inputAccMs) ballPos_matchStart rfl
    speed_matchStart
  have hwall : (⟨trunc (sendStateInputs (afterInput inputAccMs).globals).2.state.boxSize.y, 0, 0,
      trunc (sendStateInputs (afterInput inputAccMs).globals).2.state.boxSize.x⟩ : Wall) =
      fieldWall := by
    change (⟨trunc (320 : ℝ), 0, 0, trunc (480 : ℝ)⟩ : Wall) = fieldWall
    simp [fieldWall]
  have hadvance : sendStateAdvance ⟨1, 1, 0, ⟨0, 0, 0⟩⟩
      (sendStateInputs (afterInput inputAccMs).globals).1
      (sendStateInputs (afterInput inputAccMs).globals).2 = some (-1, afterTick inputAccMs) := by
    unfold sendStateAdvance
    rw [hwall]
    exact Option.bind_eq_some_iff.mpr ⟨_, Lib.Loop.run_succ_inr hbody, rfl⟩
  exact Option.bind_eq_some_iff.mpr ⟨_, hadvance, rfl⟩

theorem run_oneInput (inputAccMs : I32) :
    run (playStep ⟨![1, 2]⟩) matchStart (oneInput inputAccMs) =
      some ⟨afterTick inputAccMs, takenAfter 0 (afterInput inputAccMs).globals
          (sendStatePacket .state (afterTick inputAccMs)),
        matchStart.sent ++
          [(sendStatePacket .state (afterTick inputAccMs), (afterTick inputAccMs).state)]⟩ := by
  apply run_cons_eq_some.mpr
  refine ⟨_, playStep_oneInput inputAccMs, run_cons_eq_some.mpr ⟨_, ?_, rfl⟩⟩
  rw [playStep, sendState_afterInput]
  rfl

theorem paddle_afterTick {inputAccMs : I32} (h : inputAccMs ≠ BitVec.intMin 32) :
    (afterTick inputAccMs).state.player1.pos.y = 160 + 0.5 * (inputAccMs.toInt : ℝ) := by
  change (linearMove (steer matchStart.globals.state.player1 inputAccMs)
    inputAccMs.abs.toInt).pos.y = _
  rw [steer_linearMove rfl h]
  change (320 : ℝ) / 2 + _ = _
  norm_num

theorem inRange_oneInput : AllSteps (playStep ⟨![1, 2]⟩) (InRange ⟨![1, 2]⟩) matchStart
    (oneInput 100) := by
  refine ⟨⟨trivial, ?_⟩, ?_⟩
  · intro t ht
    rw [playStep_oneInput, Option.some.injEq] at ht
    rw [← ht]
    exact near_zero
  · intro t ht
    rw [playStep_oneInput, Option.some.injEq] at ht
    rw [← ht]
    refine ⟨⟨?_, ?_⟩, fun _ _ => trivial⟩
    · intro a ha _
      exact keepsIn_middle (atRest_afterInput 100) ballPos_matchStart rfl speed_matchStart ha
    · intro t' ht'
      rw [playStep, sendState_afterInput] at ht'
      cases ht'
      intro i
      match i with
      | 0 =>
        change FitsWire (160 + 0.5 * ((100 : Int) : ℝ))
        apply fitsWire_of_le
        norm_num
      | 1 =>
        change FitsWire (160 + 0.5 * ((0 : Int) : ℝ))
        apply fitsWire_of_le
        norm_num

theorem coordinates_delivered_oneInput :
    ∃ s, run (playStep ⟨![1, 2]⟩) matchStart (oneInput 100) = some s ∧
      ∀ p ∈ s.sent, Delivered p.1 p.2 :=
  ⟨_, run_oneInput 100, coordinates_delivered inRange_oneInput (run_oneInput 100)⟩

/-- Sixteen minutes of input in one packet move the paddle to where the wire cannot tell. -/
theorem coordinates_undelivered_oneInput :
    ∃ s p x, run (playStep ⟨![1, 2]⟩) matchStart (oneInput 1000000) = some s ∧ p ∈ s.sent ∧
      p.1.type = CpongPacket.state.code ∧ x ∈ carriedFloats p.1.data.state .state ∧
      ¬ FitsWire x := by
  refine ⟨_, _, (afterTick 1000000).state.player1.pos.y, run_oneInput 1000000,
    List.mem_append_right _ (List.mem_singleton.mpr rfl), rfl, List.mem_cons_self, ?_⟩
  have hinput : (1000000 : I32).toInt = 1000000 := by decide
  rw [paddle_afterTick (by decide), hinput, FitsWire]
  norm_num

end CPong
