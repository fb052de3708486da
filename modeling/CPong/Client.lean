import CPong.Packets

/-!
# The game client

`client_logic.c` and the start of `client_main`, without drawing.
-/

namespace CPong

set_option autoImplicit false

open Lib (trunc)

/-- The variables that the threads of the client share. -/
@[ext]
structure ClientData (F : Type) where
  localState : PongState F
  serverState : PongState F
  sync : I8
  inputAccMs : I32
deriving DecidableEq

def inputDirection (up down : Bool) : Int := (down.toNat : Int) - up.toNat

section
variable {F : Type}

def serverSnap (localState server : PongState F) : PongState F :=
  let snapped := { localState with
    ball := { localState.ball with pos := server.ball.pos, velocity := server.ball.velocity } }
  if localState.ownIdIndex ≠ 0 then
    { snapped with player1 :=
      { localState.player1 with
        pos := { localState.player1.pos with y := server.player1.pos.y }
        velocity := { localState.player1.velocity with y := server.player1.velocity.y } } }
  else
    { snapped with player2 :=
      { localState.player2 with
        pos := { localState.player2.pos with y := server.player2.pos.y }
        velocity := { localState.player2.velocity with y := server.player2.velocity.y } } }

/-- The section that `server_state_receive` has for a `PACKET_STATE`. -/
def receiveState (args : ClientData F) (server : PongState F) : ClientData F :=
  { args with serverState := server, localState := serverSnap args.localState server }

def replaceLocalState (args : ClientData F) (state : PongState F) : ClientData F :=
  { args with localState := { state with ownIdIndex := args.localState.ownIdIndex } }

def setSync (args : ClientData F) (sync : I8) : ClientData F := { args with sync := sync }

def zeroInput (args : ClientData F) : ClientData F := { args with inputAccMs := 0 }

/-- `server_state_receive`; `res` is what `recv_packet` returned. -/
def serverStateReceive (args : ClientData F) (res : Int) (packet : Packet F) :
    Int × ClientData F :=
  if res ≤ 0 then (-1, args)
  else if packet.type = CpongPacket.state.code then (0, receiveState args packet.data.state)
  else if packet.type = CpongPacket.init.code then
    (0, zeroInput (setSync (replaceLocalState args packet.data.state) packet.sync))
  else (-1, args)

/-- `receive_paddle_inputs` with the keys that are down. -/
def receivePaddleInputs (args : ClientData F) (up down : Bool) (deltaTime : I32) :
    Int × ClientData F :=
  let inputDirection := inputDirection up down
  (inputDirection,
    { args with inputAccMs := args.inputAccMs + BitVec.ofInt 32 inputDirection * deltaTime })

/-- `client_main` up to the start of its threads, on the packet that `recv_packet` left;
`none` where it gives up. -/
def clientMain (packet : Packet F) (serverState : PongState F) : Option (ClientData F) :=
  if packet.type ≠ CpongPacket.init.code then none
  else some
    { localState := { packet.data.state with score := 0 }
      serverState := serverState
      sync := packet.sync
      inputAccMs := 0 }

variable [Field F]

/-- `network_update` up to the sending of its packet. -/
def networkUpdate (args : ClientData F) : Packet F × ClientData F :=
  let packet : Packet F :=
    { type := CpongPacket.input.code
      sync := args.sync
      size := 0
      data := (Packet.zero : Packet F).data.setInputAccMs args.inputAccMs }
  (packet, { args with inputAccMs := 0 })

def steerOwn (player : GameObj F) (inputDirection : Int) : GameObj F :=
  { player with velocity := { player.velocity with y := inputDirection * 0.5 } }

variable [LinearOrder F] [FloorRing F] [Libm F]

def updateLocalState (fuel : Nat) (localState : PongState F) (deltaTime : Int)
    (inputDirection : Int) : Option (PongState F) := do
  let upds : GameObj F × GameObj F :=
    if 0 = localState.ownIdIndex then
      (linearMove (steerOwn localState.player1 inputDirection) deltaTime,
        linearMove localState.player2 deltaTime)
    else
      (linearMove localState.player1 deltaTime,
        linearMove (steerOwn localState.player2 inputDirection) deltaTime)
  let wall : Wall := ⟨trunc localState.boxSize.y, 0, 0, trunc localState.boxSize.x⟩
  let advanced ← ballAdvance fuel wall localState.player1 localState.player2 localState.ball
    deltaTime
  return { localState with
    ball := advanced.ballUpd.getD .zero
    player1 := upds.1
    player2 := upds.2 }

def update (fuel : Nat) (args : ClientData F) (up down : Bool) (deltaTime : I32) :
    Option (ClientData F) := do
  let (paddleDirection, args) := receivePaddleInputs args up down deltaTime
  let localState ← updateLocalState fuel args.localState deltaTime.toInt paddleDirection
  return { args with localState := localState }

end

end CPong
