import CPong.BinArray
import CPong.Logic
import Mathlib.Data.Fin.VecNotation

/-!
# Packets

The packet type of `cpong_packets.h` and its two hand-written codecs in
`cpong_packets.c`.
-/

namespace CPong

set_option autoImplicit false

open Lib.Words
open Lib.Memory

def maxPacketSize : Nat := 200

def packetHeaderSize : Nat := 6

inductive CpongPacket where
  | ping
  | input
  | init
  | state
deriving DecidableEq, Repr

def CpongPacket.code : CpongPacket → Byte
  | .ping => 0
  | .input => 1
  | .init => 2
  | .state => 3

/-- The `case` that a `switch` on the type takes; `none` is its `default`. -/
def CpongPacket.ofCode (type : Byte) : Option CpongPacket :=
  if type = 0 then some .ping
  else if type = 1 then some .input
  else if type = 2 then some .init
  else if type = 3 then some .state
  else none

theorem CpongPacket.ofCode_code (k : CpongPacket) : CpongPacket.ofCode k.code = some k := by
  cases k <;> rfl

theorem CpongPacket.code_of_ofCode {type : Byte} {k : CpongPacket}
    (h : CpongPacket.ofCode type = some k) : type = k.code := by
  unfold CpongPacket.ofCode at h
  split_ifs at h with h0 h1 h2 h3
  all_goals
    cases h
    assumption

/-- `union packet_data`. Its storage is that of its largest member `state`; the members
`input` and `ping` lie over the first word of it, which is `player_ids[0]`. -/
@[ext]
structure PacketData (F : Type) where
  state : PongState F
deriving DecidableEq

@[ext]
structure Packet (F : Type) where
  type : Byte
  sync : I8
  size : I32
  data : PacketData F
deriving DecidableEq

def Packet.zero {F : Type} [Field F] : Packet F where
  type := 0
  sync := 0
  size := 0
  data := ⟨⟨0, 0, 0, .zero, .zero, .zero, .zero⟩⟩

section Union
variable {F : Type}

def PacketData.setWord (data : PacketData F) (word : I32) : PacketData F :=
  ⟨{ data.state with playerIds := Function.update data.state.playerIds 0 word }⟩

/-- `data.input.input_acc_ms` -/
def PacketData.inputAccMs (data : PacketData F) : I32 := data.state.playerIds 0

def PacketData.setInputAccMs (data : PacketData F) (inputAccMs : I32) : PacketData F :=
  data.setWord inputAccMs

@[simp]
theorem PacketData.inputAccMs_setInputAccMs (data : PacketData F) (inputAccMs : I32) :
    (data.setInputAccMs inputAccMs).inputAccMs = inputAccMs := by
  simp [PacketData.inputAccMs, PacketData.setInputAccMs, PacketData.setWord]

/-- `data.ping.dummy`, the byte at the lowest address -/
def PacketData.dummy (data : PacketData F) (e : Endian) : Byte :=
  ((store e 4 (data.state.playerIds 0)).head?).getD 0

def PacketData.setDummy (data : PacketData F) (e : Endian) (dummy : Byte) : PacketData F :=
  data.setWord (load e (dummy :: (store e 4 (data.state.playerIds 0)).tail))

end Union

section Codec
variable {F : Type} [Field F] [LinearOrder F] [FloorRing F] (host : Host F)

/-- The six lines that `packet_serialize` has for each object of a `PACKET_INIT`. -/
def appendObj (barr : Binarr) (obj : GameObj F) : Guarded Binarr := do
  let barr ← binarrAppendFloatN host barr obj.pos.x
  let barr ← binarrAppendFloatN host barr obj.pos.y
  let barr ← binarrAppendFloatN host barr obj.velocity.x
  let barr ← binarrAppendFloatN host barr obj.velocity.y
  let barr ← binarrAppendFloatN host barr obj.size.x
  binarrAppendFloatN host barr obj.size.y

def appendPaddle (barr : Binarr) (paddle : GameObj F) : Guarded Binarr := do
  let barr ← binarrAppendFloatN host barr paddle.pos.y
  let barr ← binarrAppendFloatN host barr paddle.velocity.x
  binarrAppendFloatN host barr paddle.velocity.y

/-- The `switch` of `packet_serialize`; `none` where it returns NULL. -/
def serializeData (barr : Binarr) (packet : Packet F) : Guarded (Option Binarr) := do
  let state := packet.data.state
  match CpongPacket.ofCode packet.type with
  | some .ping =>
    let barr ← binarrAppendI8 barr (packet.data.dummy host.endian)
    return some barr
  | some .input =>
    let barr ← binarrAppendI32N host barr packet.data.inputAccMs
    return some barr
  | some .init =>
    let barr ← binarrAppendI32N host barr (state.playerIds 0)
    let barr ← binarrAppendI32N host barr (state.playerIds 1)

    let barr ← binarrAppendI32N host barr state.ownIdIndex

    let barr ← binarrAppendI32N host barr (state.score 0)
    let barr ← binarrAppendI32N host barr (state.score 1)

    let barr ← appendObj host barr state.player1
    let barr ← appendObj host barr state.player2
    let barr ← appendObj host barr state.ball

    let barr ← binarrAppendFloatN host barr state.boxSize.x
    let barr ← binarrAppendFloatN host barr state.boxSize.y
    return some barr
  | some .state =>
    let barr ← appendPaddle host barr state.player1
    let barr ← appendPaddle host barr state.player2

    let barr ← binarrAppendFloatN host barr state.ball.pos.x
    let barr ← binarrAppendFloatN host barr state.ball.pos.y
    let barr ← binarrAppendFloatN host barr state.ball.velocity.x
    let barr ← binarrAppendFloatN host barr state.ball.velocity.y
    return some barr
  | none => return none

/-- The flag is `false` where the source returns NULL. -/
def packetSerialize (barr : Binarr) (packet : Packet F) : Guarded (Bool × Binarr) := do
  let barr ← binarrAppendI8 barr packet.type
  let barr ← binarrAppendI8 barr packet.sync
  let barr := { barr with index := barr.index + 4 }
  let barr := { barr with size := barr.index }
  match ← serializeData host barr packet with
  | none => return (false, barr)
  | some barr =>
    let size : I32 := BitVec.ofNat 32 (barr.index - packetHeaderSize)
    let barr := { barr with index := 2 }
    let barr ← binarrWriteI32N host barr size
    return (true, { barr with index := barr.size })

omit [LinearOrder F] [FloorRing F] in
def readObj (obj : GameObj F) (barr : Binarr) : Guarded (GameObj F × Binarr) := do
  let (posX, barr) ← binarrReadFloatN host barr
  let (posY, barr) ← binarrReadFloatN host barr
  let (velocityX, barr) ← binarrReadFloatN host barr
  let (velocityY, barr) ← binarrReadFloatN host barr
  let (sizeX, barr) ← binarrReadFloatN host barr
  let (sizeY, barr) ← binarrReadFloatN host barr
  return ({ obj with
    pos := ⟨posX, posY⟩, velocity := ⟨velocityX, velocityY⟩, size := ⟨sizeX, sizeY⟩ }, barr)

omit [LinearOrder F] [FloorRing F] in
def readPaddle (paddle : GameObj F) (barr : Binarr) : Guarded (GameObj F × Binarr) := do
  let (posY, barr) ← binarrReadFloatN host barr
  let (velocityX, barr) ← binarrReadFloatN host barr
  let (velocityY, barr) ← binarrReadFloatN host barr
  return ({ paddle with
    pos := { paddle.pos with y := posY }, velocity := ⟨velocityX, velocityY⟩ }, barr)

def deserializeData (packet : Packet F) (barr : Binarr) :
    Guarded (Bool × Packet F × Binarr) := do
  let state := packet.data.state
  match CpongPacket.ofCode packet.type with
  | some .ping =>
    let (dummy, barr) ← binarrReadI8 barr
    return (true, { packet with data := packet.data.setDummy host.endian dummy }, barr)
  | some .input =>
    let (inputAccMs, barr) ← binarrReadI32N host barr
    return (true, { packet with data := packet.data.setInputAccMs inputAccMs }, barr)
  | some .init =>
    let (playerId0, barr) ← binarrReadI32N host barr
    let (playerId1, barr) ← binarrReadI32N host barr

    let (ownIdIndex, barr) ← binarrReadI32N host barr

    let (score0, barr) ← binarrReadI32N host barr
    let (score1, barr) ← binarrReadI32N host barr

    let (player1, barr) ← readObj host state.player1 barr
    let (player2, barr) ← readObj host state.player2 barr
    let (ball, barr) ← readObj host state.ball barr

    let (boxSizeX, barr) ← binarrReadFloatN host barr
    let (boxSizeY, barr) ← binarrReadFloatN host barr
    let state : PongState F :=
      { playerIds := ![playerId0, playerId1]
        ownIdIndex := ownIdIndex
        score := ![score0, score1]
        player1 := player1
        player2 := player2
        ball := ball
        boxSize := ⟨boxSizeX, boxSizeY⟩ }
    return (true, { packet with data := ⟨state⟩ }, barr)
  | some .state =>
    let (player1, barr) ← readPaddle host state.player1 barr
    let (player2, barr) ← readPaddle host state.player2 barr

    let (ballPosX, barr) ← binarrReadFloatN host barr
    let (ballPosY, barr) ← binarrReadFloatN host barr
    let (ballVelocityX, barr) ← binarrReadFloatN host barr
    let (ballVelocityY, barr) ← binarrReadFloatN host barr
    let state : PongState F :=
      { state with
        player1 := player1
        player2 := player2
        ball := { state.ball with
          pos := ⟨ballPosX, ballPosY⟩
          velocity := ⟨ballVelocityX, ballVelocityY⟩ } }
    return (true, { packet with data := ⟨state⟩ }, barr)
  | none => return (false, packet, barr)

def packetDeserialize (packet : Packet F) (barr : Binarr) :
    Guarded (Bool × Packet F × Binarr) := do
  let barr := { barr with index := 0 }
  let (type, barr) ← binarrReadI8 barr
  let (sync, barr) ← binarrReadI8 barr
  let (size, barr) ← binarrReadI32N host barr
  deserializeData host { packet with type := type, sync := sync, size := size } barr

end Codec

end CPong
