import CPong.Packets

/-!
# The game server

`server_main.c` and the two functions of `utility.c` it calls. All matches of one server
process share its static variables.
-/

namespace CPong

set_option autoImplicit false

open Lib (trunc)

structure Room where
  clients : Fin 2 → I32
deriving DecidableEq

/-- The static variables of `server_main.c`. -/
@[ext]
structure Globals (F : Type) where
  state : PongState F
  ssync : I8
  input1 : I32
  input2 : I32
deriving DecidableEq

def getInputAccDirection (inputAcc : I32) : Int :=
  if inputAcc.toInt > 0 then 1 else if inputAcc.toInt = 0 then 0 else -1

def roomBroadcast {F : Type} (room : Room) (packet : Packet F) : List (I32 × Packet F) :=
  [(room.clients 0, packet), (room.clients 1, packet)]

/-- What one call of `send_state` takes from outside: the arguments and the trips round the
loop of `ball_advance`, what `scored_index` holds before it is written, and the random
numbers of `init_game`. -/
structure Tick where
  deltaTime : I32
  fuel : Nat
  scoredIndex : Int
  rands : Rands
deriving DecidableEq, Repr

structure PlayerUpds (F : Type) where
  player1 : GameObj F
  player2 : GameObj F
deriving DecidableEq, Repr

/-- `score[scored_index]` is an element of the array. -/
def playerIndex (scoredIndex : Int) : Option (Fin 2) :=
  if scoredIndex = 0 then some 0 else if scoredIndex = 1 then some 1 else none

section
variable {F : Type} [Field F]

def Globals.zero : Globals F :=
  { state := (Packet.zero : Packet F).data.state, ssync := 0, input1 := 0, input2 := 0 }

def steer (player : GameObj F) (inputAccMs : I32) : GameObj F :=
  { player with
    velocity := { player.velocity with y := player.speed * getInputAccDirection inputAccMs } }

/-- The section of `send_state` under `input_mtx`. -/
def sendStateInputs (g : Globals F) : PlayerUpds F × Globals F :=
  let player1 := steer g.state.player1 g.input1
  let player2 := steer g.state.player2 g.input2
  (⟨linearMove player1 g.input1.abs.toInt, linearMove player2 g.input2.abs.toInt⟩,
    { g with
      state := { g.state with player1 := player1, player2 := player2 }
      input1 := 0
      input2 := 0 })

def sendStatePacket (type : CpongPacket) (g : Globals F) : Packet F :=
  { type := type.code, sync := g.ssync, size := 0, data := ⟨g.state⟩ }

/-- The part of `on_input_ready` under `input_mtx`. -/
def onInputReadyAccumulate (g : Globals F) (id inputAccMs : I32) : Globals F :=
  if g.state.playerIds 0 = id then { g with input1 := g.input1 + inputAccMs }
  else if g.state.playerIds 1 = id then { g with input2 := g.input2 + inputAccMs }
  else g

/-- `on_input_ready` for the client `id`; `res` is what `recv_packet` returned and `packet`
what the local variable then holds. -/
def onInputReady (g : Globals F) (id : I32) (res : Int) (packet : Packet F) : Bool × Globals F :=
  if res = 0 then (false, g)
  else if packet.sync ≠ g.ssync then (true, g)
  else if packet.type ≠ CpongPacket.input.code then (true, g)
  else (true, onInputReadyAccumulate g id packet.data.inputAccMs)

variable [LinearOrder F] [FloorRing F] [Libm F]

def moveObjects (upds : PlayerUpds F) (ball : GameObj F) (g : Globals F) : Globals F :=
  { g with state :=
    { g.state with ball := ball, player1 := upds.player1, player2 := upds.player2 } }

/-- The call of `ball_advance` in `send_state` and the assignments after it. -/
def sendStateAdvance (tick : Tick) (upds : PlayerUpds F) (g : Globals F) :
    Option (Int × Globals F) := do
  let wall : Wall := ⟨trunc g.state.boxSize.y, 0, 0, trunc g.state.boxSize.x⟩
  let advanced ← ballAdvance tick.fuel wall g.state.player1 g.state.player2 g.state.ball
    tick.deltaTime.toInt
  return (advanced.scoredIndex.getD tick.scoredIndex,
    moveObjects upds (advanced.ballUpd.getD .zero) g)

def scorePoint (i : Fin 2) (rands : Rands) (g : Globals F) : Globals F :=
  let state := initGame g.state rands
  { g with
    state := { state with score := Function.update state.score i (state.score i + 1) }
    ssync := g.ssync + 1 }

def sendStateScore (scoredIndex : Int) (rands : Rands) (g : Globals F) : Option (Globals F) := do
  let i ← playerIndex scoredIndex
  return scorePoint i rands g

/-- `send_state` up to the broadcast of its packet. -/
def sendState (tick : Tick) (g : Globals F) : Option (Packet F × Globals F) := do
  let (upds, g) := sendStateInputs g
  let (scoredIndex, g) ← sendStateAdvance tick upds g
  if scoredIndex ≠ -1 then
    let g ← sendStateScore scoredIndex tick.rands g
    return (sendStatePacket .init g, g)
  else return (sendStatePacket .state g, g)

omit [LinearOrder F] [FloorRing F] [Libm F] in
/-- The packet that `start_pong_game` sends to the client of the given index. -/
def initPacket (g : Globals F) (ownIdIndex : I32) : Packet F :=
  { sendStatePacket .init g with data := ⟨{ g.state with ownIdIndex := ownIdIndex }⟩ }

/-- `start_pong_game` up to the start of its threads. -/
def startPongGame (room : Room) (rands : Rands) (g : Globals F) :
    List (I32 × Packet F) × Globals F :=
  let state := initGame { g.state with playerIds := room.clients, score := 0 } rands
  let g := { g with state := state }
  ([(room.clients 0, initPacket g 0), (room.clients 1, initPacket g 1)], g)

end

section
variable {F : Type} {g g' : Globals F}

@[simp] theorem onInputReadyAccumulate_state (g : Globals F) (id inputAccMs : I32) :
    (onInputReadyAccumulate g id inputAccMs).state = g.state := by
  unfold onInputReadyAccumulate
  split_ifs <;> rfl

@[simp] theorem onInputReadyAccumulate_ssync (g : Globals F) (id inputAccMs : I32) :
    (onInputReadyAccumulate g id inputAccMs).ssync = g.ssync := by
  unfold onInputReadyAccumulate
  split_ifs <;> rfl

theorem onInputReady_state (g : Globals F) (id : I32) (res : Int) (packet : Packet F) :
    (onInputReady g id res packet).2.state = g.state := by
  unfold onInputReady
  split_ifs <;> simp

theorem onInputReady_ssync (g : Globals F) (id : I32) (res : Int) (packet : Packet F) :
    (onInputReady g id res packet).2.ssync = g.ssync := by
  unfold onInputReady
  split_ifs <;> simp

theorem onInputReady_stranger {id : I32} (h0 : g.state.playerIds 0 ≠ id)
    (h1 : g.state.playerIds 1 ≠ id) (res : Int) (packet : Packet F) :
    (onInputReady g id res packet).2 = g := by
  unfold onInputReady onInputReadyAccumulate
  rw [if_neg h0, if_neg h1]
  split_ifs <;> rfl

variable [Field F] [LinearOrder F] [FloorRing F] [Libm F]

theorem initGame_congr {s s' : PongState F} (hids : s.playerIds = s'.playerIds)
    (hown : s.ownIdIndex = s'.ownIdIndex) (hscore : s.score = s'.score) (rands : Rands) :
    initGame s rands = initGame s' rands := by
  simp only [initGame, initPaddle, initBall, hids, hown, hscore]

theorem startPongGame_congr (room : Room) (hown : g.state.ownIdIndex = g'.state.ownIdIndex)
    (hsync : g.ssync = g'.ssync) (h1 : g.input1 = g'.input1) (h2 : g.input2 = g'.input2)
    (rands : Rands) : startPongGame room rands g = startPongGame room rands g' := by
  have hstate : initGame { g.state with playerIds := room.clients, score := 0 } rands =
      initGame { g'.state with playerIds := room.clients, score := 0 } rands := by
    apply initGame_congr
    · rfl
    · exact hown
    · rfl
  simp only [startPongGame, initPacket, sendStatePacket, hstate, hsync, h1, h2]

/-- A tick moves the objects; it then either goes on with the round or starts a new one. -/
theorem sendState_cases {tick : Tick} {packet : Packet F}
    (h : sendState tick g = some (packet, g')) :
    ∃ scoredIndex ball,
      sendStateAdvance tick (sendStateInputs g).1 (sendStateInputs g).2 =
        some (scoredIndex, moveObjects (sendStateInputs g).1 ball (sendStateInputs g).2) ∧
      (scoredIndex = -1 ∧
          g' = moveObjects (sendStateInputs g).1 ball (sendStateInputs g).2 ∧
          packet = sendStatePacket .state g' ∨
        ∃ i, playerIndex scoredIndex = some i ∧
          g' = scorePoint i tick.rands
            (moveObjects (sendStateInputs g).1 ball (sendStateInputs g).2) ∧
          packet = sendStatePacket .init g') := by
  obtain ⟨⟨scoredIndex, moved⟩, hadvance, hrest⟩ := Option.bind_eq_some_iff.mp h
  have hmoved : ∃ ball, moved =
      moveObjects (sendStateInputs g).1 ball (sendStateInputs g).2 := by
    obtain ⟨advanced, -, hres⟩ := Option.bind_eq_some_iff.mp hadvance
    cases hres
    exact ⟨_, rfl⟩
  obtain ⟨ball, rfl⟩ := hmoved
  refine ⟨scoredIndex, ball, hadvance, ?_⟩
  by_cases hscored : scoredIndex = -1
  · left
    simp only [hscored, ne_eq, not_true_eq_false, if_false] at hrest
    cases hrest
    exact ⟨hscored, rfl, rfl⟩
  · right
    simp only [hscored, ne_eq, not_false_eq_true, if_true] at hrest
    obtain ⟨scored, hscore, hres⟩ := Option.bind_eq_some_iff.mp hrest
    obtain ⟨i, hi, hpoint⟩ := Option.bind_eq_some_iff.mp hscore
    cases hpoint
    cases hres
    exact ⟨i, hi, rfl, rfl⟩

theorem sendState_playOn {tick : Tick} {moved : Globals F}
    (h : sendStateAdvance tick (sendStateInputs g).1 (sendStateInputs g).2 = some (-1, moved)) :
    sendState tick g = some (sendStatePacket .state moved, moved) :=
  Option.bind_eq_some_iff.mpr ⟨(-1, moved), h, rfl⟩

theorem sendState_scored {tick : Tick} {moved : Globals F} {scoredIndex : Int} {i : Fin 2}
    (h : sendStateAdvance tick (sendStateInputs g).1 (sendStateInputs g).2 =
      some (scoredIndex, moved))
    (hscored : scoredIndex ≠ -1) (hi : playerIndex scoredIndex = some i) :
    sendState tick g = some (sendStatePacket .init (scorePoint i tick.rands moved),
      scorePoint i tick.rands moved) := by
  refine Option.bind_eq_some_iff.mpr ⟨(scoredIndex, moved), h, ?_⟩
  simp [hscored, sendStateScore, hi]

theorem sendState_ids {tick : Tick} {packet : Packet F}
    (h : sendState tick g = some (packet, g')) :
    g'.state.playerIds = g.state.playerIds ∧ g'.state.ownIdIndex = g.state.ownIdIndex := by
  obtain ⟨_, _, -, ⟨-, rfl, -⟩ | ⟨_, -, rfl, -⟩⟩ := sendState_cases h
  · exact ⟨rfl, rfl⟩
  · exact ⟨rfl, rfl⟩

end

end CPong
