import CPong.Packets
import Mathlib.Data.Rat.Floor

/-!
# The codec round trip

What `packet_serialize` puts on the wire and what `packet_deserialize` makes of it, for
any two hosts.
-/

namespace CPong

set_option autoImplicit false

open Lib.Words
open Lib.Memory

section Layout
variable {F : Type} [Field F]

/-- The float fields that each type carries, in wire order. -/
def carriedFloats (state : PongState F) : CpongPacket → List F
  | .ping => []
  | .input => []
  | .init =>
    [state.player1.pos.x, state.player1.pos.y, state.player1.velocity.x,
      state.player1.velocity.y, state.player1.size.x, state.player1.size.y,
      state.player2.pos.x, state.player2.pos.y, state.player2.velocity.x,
      state.player2.velocity.y, state.player2.size.x, state.player2.size.y,
      state.ball.pos.x, state.ball.pos.y, state.ball.velocity.x, state.ball.velocity.y,
      state.ball.size.x, state.ball.size.y, state.boxSize.x, state.boxSize.y]
  | .state =>
    [state.player1.pos.y, state.player1.velocity.x, state.player1.velocity.y,
      state.player2.pos.y, state.player2.velocity.x, state.player2.velocity.y,
      state.ball.pos.x, state.ball.pos.y, state.ball.velocity.x, state.ball.velocity.y]

def carriedInts (data : PacketData F) : CpongPacket → List I32
  | .ping => []
  | .input => [data.inputAccMs]
  | .init =>
    [data.state.playerIds 0, data.state.playerIds 1, data.state.ownIdIndex,
      data.state.score 0, data.state.score 1]
  | .state => []

/-- `state` with the float fields that `k` carries taken from `p` through `f`. -/
def takeFloats (f : F → F) (p state : PongState F) : CpongPacket → PongState F
  | .ping => state
  | .input => state
  | .init =>
    { state with
      player1 := { state.player1 with
        pos := ⟨f p.player1.pos.x, f p.player1.pos.y⟩
        velocity := ⟨f p.player1.velocity.x, f p.player1.velocity.y⟩
        size := ⟨f p.player1.size.x, f p.player1.size.y⟩ }
      player2 := { state.player2 with
        pos := ⟨f p.player2.pos.x, f p.player2.pos.y⟩
        velocity := ⟨f p.player2.velocity.x, f p.player2.velocity.y⟩
        size := ⟨f p.player2.size.x, f p.player2.size.y⟩ }
      ball := { state.ball with
        pos := ⟨f p.ball.pos.x, f p.ball.pos.y⟩
        velocity := ⟨f p.ball.velocity.x, f p.ball.velocity.y⟩
        size := ⟨f p.ball.size.x, f p.ball.size.y⟩ }
      boxSize := ⟨f p.boxSize.x, f p.boxSize.y⟩ }
  | .state =>
    { state with
      player1 := { state.player1 with
        pos := { state.player1.pos with y := f p.player1.pos.y }
        velocity := ⟨f p.player1.velocity.x, f p.player1.velocity.y⟩ }
      player2 := { state.player2 with
        pos := { state.player2.pos with y := f p.player2.pos.y }
        velocity := ⟨f p.player2.velocity.x, f p.player2.velocity.y⟩ }
      ball := { state.ball with
        pos := ⟨f p.ball.pos.x, f p.ball.pos.y⟩
        velocity := ⟨f p.ball.velocity.x, f p.ball.velocity.y⟩ } }

def takeInts (sender receiver : Endian) (p data : PacketData F) : CpongPacket → PacketData F
  | .ping => data.setDummy receiver (p.dummy sender)
  | .input => data.setInputAccMs p.inputAccMs
  | .init =>
    ⟨{ data.state with
      playerIds := p.state.playerIds
      ownIdIndex := p.state.ownIdIndex
      score := p.state.score }⟩
  | .state => data

def payloadLength : CpongPacket → Nat
  | .ping => 1
  | .input => 4
  | .init => 100
  | .state => 40

/-- The packet `p` of type `k` received into `r`, with every float passed through `f`. -/
def packetImage (f : F → F) (sender receiver : Endian) (k : CpongPacket) (p r : Packet F) :
    Packet F :=
  let data := takeInts sender receiver p.data r.data k
  { type := p.type
    sync := p.sync
    size := BitVec.ofNat 32 (payloadLength k)
    data := ⟨takeFloats f p.data.state data.state k⟩ }

omit [Field F] in
theorem takeFloats_congr {f g : F → F} {p : PongState F} {k : CpongPacket} (state : PongState F)
    (h : ∀ x ∈ carriedFloats p k, f x = g x) : takeFloats f p state k = takeFloats g p state k := by
  cases k with
  | ping => rfl
  | input => rfl
  | init =>
    simp only [carriedFloats, List.forall_mem_cons] at h
    simp only [takeFloats, h]
  | state =>
    simp only [carriedFloats, List.forall_mem_cons] at h
    simp only [takeFloats, h]

end Layout

section Wire
variable {F : Type} [Field F] [LinearOrder F] [FloorRing F]

def wireFloat (host : Host F) (x : F) : I32 := int32OfFloat host (x * floatScale)

def receivedFloat (host : Host F) (x : F) : F := ((wireFloat host x).toInt : F) / floatScale

def carriedWords (host : Host F) (data : PacketData F) (k : CpongPacket) : List I32 :=
  carriedInts data k ++ (carriedFloats data.state k).map (wireFloat host)

def payload (host : Host F) (k : CpongPacket) (data : PacketData F) : List Byte :=
  match k with
  | .ping => [data.dummy host.endian]
  | .input => (carriedWords host data .input).flatMap (store .big 4)
  | .init => (carriedWords host data .init).flatMap (store .big 4)
  | .state => (carriedWords host data .state).flatMap (store .big 4)

/-- The whole packet as it goes over the wire. -/
def frame (host : Host F) (k : CpongPacket) (p : Packet F) : List Byte :=
  [p.type, p.sync] ++ (store .big 4 (BitVec.ofNat 32 (payloadLength k) : I32) ++
    payload host k p.data)

theorem length_payload (host : Host F) (k : CpongPacket) (data : PacketData F) :
    (payload host k data).length = payloadLength k := by
  cases k <;> simp [payload, payloadLength, carriedWords, carriedInts, carriedFloats]

theorem length_frame (host : Host F) (k : CpongPacket) (p : Packet F) :
    (frame host k p).length = packetHeaderSize + payloadLength k := by
  simp only [frame, List.length_append, length_store, length_payload, packetHeaderSize,
    List.length_cons, List.length_nil]
  omega

theorem payloadLength_le (k : CpongPacket) : payloadLength k ≤ 100 := by
  cases k <;> decide

theorem payloadLength_pos (k : CpongPacket) : 0 < payloadLength k := by
  cases k <;> decide

theorem serializeData_filled (host : Host F) {k : CpongPacket} {p : Packet F}
    (hk : CpongPacket.ofCode p.type = some k) {used free : List Byte}
    (h : payloadLength k ≤ free.length) :
    serializeData host (filled used free) p =
      .ok (some (filled (used ++ payload host k p.data) (free.drop (payloadLength k)))) := by
  have hwords : ∀ ws : List I32, 4 * ws.length = payloadLength k →
      (ws.foldlM (binarrAppendI32N host) (filled used free) >>= fun b => pure (some b)) =
        (.ok (some (filled (used ++ ws.flatMap (store .big 4)) (free.drop (payloadLength k)))) :
          Guarded (Option Binarr)) := by
    intro ws hws
    rw [foldlM_binarrAppendI32N_filled host ws (by omega), hws]
    rfl
  cases k with
  | ping =>
    simp only [serializeData, hk, binarrAppendI8_filled _ h]
    rfl
  | input =>
    rw [payload, ← hwords _ (by rfl)]
    simp only [serializeData, hk, carriedWords, carriedInts, carriedFloats, List.map_nil,
      List.append_nil, List.foldlM_cons, List.foldlM_nil, bind_assoc, pure_bind]
  | init =>
    rw [payload, ← hwords _ (by rfl)]
    simp only [serializeData, hk, carriedWords, carriedInts, carriedFloats, List.map_cons,
      List.map_nil, List.cons_append, List.nil_append, List.foldlM_cons, List.foldlM_nil,
      bind_assoc, pure_bind, appendObj, binarrAppendFloatN, wireFloat]
  | state =>
    rw [payload, ← hwords _ (by rfl)]
    simp only [serializeData, hk, carriedWords, carriedInts, carriedFloats, List.map_cons,
      List.map_nil, List.nil_append, List.foldlM_cons, List.foldlM_nil, bind_assoc, pure_bind,
      appendPaddle, binarrAppendFloatN, wireFloat]

/-- A known packet serialised into a fresh array is its frame; the size field is patched
in after the payload. -/
theorem packetSerialize_new (host : Host F) {k : CpongPacket} {p : Packet F}
    (hk : CpongPacket.ofCode p.type = some k) {block : List Byte}
    (h : packetHeaderSize + payloadLength k ≤ block.length) :
    packetSerialize host (binarrNew block) p =
      .ok (true, filled (frame host k p) (block.drop (packetHeaderSize + payloadLength k))) := by
  have hlen : 6 + payloadLength k ≤ block.length := h
  have hgap : ((block.drop 2).take 4).length = 4 := by
    simp only [List.length_take, List.length_drop]
    omega
  have htype : binarrAppendI8 (binarrNew block) p.type = .ok (filled [p.type] (block.drop 1)) := by
    rw [binarrNew_eq_filled, binarrAppendI8_filled p.type (by omega), List.nil_append]
  have hsync : binarrAppendI8 (filled [p.type] (block.drop 1)) p.sync =
      .ok (filled [p.type, p.sync] (block.drop 2)) := by
    rw [binarrAppendI8_filled p.sync (by rw [List.length_drop]; omega), List.drop_drop]
    rfl
  have hskip : (⟨[p.type, p.sync] ++ block.drop 2, 6, 6⟩ : Binarr) =
      filled ([p.type, p.sync] ++ (block.drop 2).take 4) (block.drop 6) := by
    have hsplit := List.take_append_drop 4 (block.drop 2)
    rw [List.drop_drop] at hsplit
    simp only [filled, List.append_assoc, hsplit, List.length_append, hgap]
    rfl
  have hfree : payloadLength k ≤ (block.drop 6).length := by
    rw [List.length_drop]
    omega
  have hdata : serializeData host
      (filled ([p.type, p.sync] ++ (block.drop 2).take 4) (block.drop 6)) p = _ :=
    serializeData_filled host hk hfree
  have hpatch := binarrWriteI32N_replace host [p.type, p.sync] ((block.drop 2).take 4)
    (payload host k p.data ++ (block.drop 6).drop (payloadLength k))
    (BitVec.ofNat 32 (payloadLength k)) (6 + payloadLength k) hgap
  have hindex : ([p.type, p.sync] ++ (block.drop 2).take 4 ++ payload host k p.data).length =
      6 + payloadLength k := by
    simp only [List.length_append, hgap, length_payload]
    rfl
  simp only [packetSerialize, htype, hsync, ok_bind]
  change (serializeData host ⟨[p.type, p.sync] ++ block.drop 2, 6, 6⟩ p >>= _) = _
  rw [hskip, hdata, ok_bind]
  simp only [filled, hindex, length_frame, packetHeaderSize, Nat.add_sub_cancel_left]
  simp only [List.append_assoc, List.length_cons, List.length_nil] at hpatch ⊢
  rw [hpatch, ok_bind, pure_eq_ok]
  simp only [frame, List.append_assoc, List.drop_drop]

omit [LinearOrder F] [FloorRing F] in
theorem binarrReadFloatN_cursor (host : Host F) (read rest : List Byte) (data : I32)
    (size : Nat) :
    binarrReadFloatN host (cursor read (store .big 4 data ++ rest) size) =
      .ok ((data.toInt : F) / floatScale, cursor (read ++ store .big 4 data) rest size) := by
  simp only [binarrReadFloatN, binarrReadI32N_cursor, ok_bind, pure_eq_ok]

def floatBytes (host : Host F) (xs : List F) : List Byte :=
  xs.flatMap fun x => store .big 4 (wireFloat host x)

theorem binarrReadFloatN_cursor_wire (sender receiver : Host F) (read rest : List Byte) (x : F)
    (size : Nat) :
    binarrReadFloatN receiver (cursor read (store .big 4 (wireFloat sender x) ++ rest) size) =
      .ok (receivedFloat sender x, cursor (read ++ store .big 4 (wireFloat sender x)) rest size) :=
  binarrReadFloatN_cursor receiver read rest _ size

theorem readObj_cursor (sender receiver : Host F) (obj into : GameObj F) (read rest : List Byte)
    (size : Nat) :
    readObj receiver into (cursor read (floatBytes sender [obj.pos.x, obj.pos.y, obj.velocity.x,
        obj.velocity.y, obj.size.x, obj.size.y] ++ rest) size) =
      .ok ({ into with
        pos := ⟨receivedFloat sender obj.pos.x, receivedFloat sender obj.pos.y⟩
        velocity := ⟨receivedFloat sender obj.velocity.x, receivedFloat sender obj.velocity.y⟩
        size := ⟨receivedFloat sender obj.size.x, receivedFloat sender obj.size.y⟩ },
        cursor (read ++ floatBytes sender [obj.pos.x, obj.pos.y, obj.velocity.x,
          obj.velocity.y, obj.size.x, obj.size.y]) rest size) := by
  simp only [readObj, floatBytes, List.flatMap_cons, List.flatMap_nil, List.append_assoc,
    List.append_nil, binarrReadFloatN_cursor_wire, ok_bind, pure_eq_ok]

theorem readPaddle_cursor (sender receiver : Host F) (paddle into : GameObj F)
    (read rest : List Byte) (size : Nat) :
    readPaddle receiver into (cursor read (floatBytes sender [paddle.pos.y, paddle.velocity.x,
        paddle.velocity.y] ++ rest) size) =
      .ok ({ into with
        pos := { into.pos with y := receivedFloat sender paddle.pos.y }
        velocity := ⟨receivedFloat sender paddle.velocity.x,
          receivedFloat sender paddle.velocity.y⟩ },
        cursor (read ++ floatBytes sender [paddle.pos.y, paddle.velocity.x, paddle.velocity.y])
          rest size) := by
  simp only [readPaddle, floatBytes, List.flatMap_cons, List.flatMap_nil, List.append_assoc,
    List.append_nil, binarrReadFloatN_cursor_wire, ok_bind, pure_eq_ok]

theorem payload_init (host : Host F) (data : PacketData F) :
    payload host .init data =
      store .big 4 (data.state.playerIds 0) ++ (store .big 4 (data.state.playerIds 1) ++
      (store .big 4 data.state.ownIdIndex ++ (store .big 4 (data.state.score 0) ++
      (store .big 4 (data.state.score 1) ++
      (floatBytes host [data.state.player1.pos.x, data.state.player1.pos.y,
        data.state.player1.velocity.x, data.state.player1.velocity.y,
        data.state.player1.size.x, data.state.player1.size.y] ++
      (floatBytes host [data.state.player2.pos.x, data.state.player2.pos.y,
        data.state.player2.velocity.x, data.state.player2.velocity.y,
        data.state.player2.size.x, data.state.player2.size.y] ++
      (floatBytes host [data.state.ball.pos.x, data.state.ball.pos.y,
        data.state.ball.velocity.x, data.state.ball.velocity.y,
        data.state.ball.size.x, data.state.ball.size.y] ++
      (store .big 4 (wireFloat host data.state.boxSize.x) ++
      store .big 4 (wireFloat host data.state.boxSize.y))))))))) := by
  simp only [payload, carriedWords, carriedInts, carriedFloats, floatBytes, List.map_cons,
    List.map_nil, List.cons_append, List.nil_append, List.flatMap_cons, List.flatMap_nil,
    List.append_nil, List.append_assoc]

theorem payload_state (host : Host F) (data : PacketData F) :
    payload host .state data =
      floatBytes host [data.state.player1.pos.y, data.state.player1.velocity.x,
        data.state.player1.velocity.y] ++
      (floatBytes host [data.state.player2.pos.y, data.state.player2.velocity.x,
        data.state.player2.velocity.y] ++
      (store .big 4 (wireFloat host data.state.ball.pos.x) ++
      (store .big 4 (wireFloat host data.state.ball.pos.y) ++
      (store .big 4 (wireFloat host data.state.ball.velocity.x) ++
      store .big 4 (wireFloat host data.state.ball.velocity.y))))) := by
  simp only [payload, carriedWords, carriedInts, carriedFloats, floatBytes, List.map_cons,
    List.map_nil, List.nil_append, List.flatMap_cons, List.flatMap_nil, List.append_nil,
    List.append_assoc]

theorem deserializeData_cursor (sender receiver : Host F) {k : CpongPacket} {q : Packet F}
    (hk : CpongPacket.ofCode q.type = some k) (data : PacketData F) (read rest : List Byte)
    (size : Nat) :
    deserializeData receiver q (cursor read (payload sender k data ++ rest) size) =
      .ok (true,
        { q with data := ⟨takeFloats (receivedFloat sender) data.state
            (takeInts sender.endian receiver.endian data q.data k).state k⟩ },
        cursor (read ++ payload sender k data) rest size) := by
  cases k with
  | ping =>
    simp only [deserializeData, hk, payload, List.cons_append, List.nil_append,
      binarrReadI8_cursor, ok_bind, pure_eq_ok]
    rfl
  | input =>
    simp only [deserializeData, hk, payload, carriedWords, carriedInts, carriedFloats,
      List.map_nil, List.append_nil, List.flatMap_cons, List.flatMap_nil,
      binarrReadI32N_cursor, ok_bind, pure_eq_ok]
    rfl
  | init =>
    have hids : ∀ g : Fin 2 → I32, ![g 0, g 1] = g := fun g =>
      funext (Fin.forall_fin_two.mpr ⟨rfl, rfl⟩)
    simp only [deserializeData, hk, payload_init, List.append_assoc, binarrReadI32N_cursor,
      readObj_cursor, binarrReadFloatN_cursor_wire, ok_bind, pure_eq_ok, hids, takeFloats, takeInts]
  | state =>
    simp only [deserializeData, hk, payload_state, List.append_assoc, readPaddle_cursor,
      binarrReadFloatN_cursor_wire, ok_bind, pure_eq_ok, takeFloats, takeInts]

theorem packetDeserialize_frame (sender receiver : Host F) {k : CpongPacket} {p : Packet F}
    (hk : CpongPacket.ofCode p.type = some k) (r : Packet F) (rest : List Byte) (size index : Nat) :
    packetDeserialize receiver r ⟨frame sender k p ++ rest, size, index⟩ =
      .ok (true, packetImage (receivedFloat sender) sender.endian receiver.endian k p r,
        cursor (frame sender k p) rest size) := by
  have hstart : (⟨frame sender k p ++ rest, size, 0⟩ : Binarr) =
      cursor [] (p.type :: p.sync :: (store .big 4 (BitVec.ofNat 32 (payloadLength k)) ++
        (payload sender k p.data ++ rest))) size := by
    simp only [cursor, frame, List.cons_append, List.nil_append, List.append_assoc,
      List.length_nil]
  simp only [packetDeserialize, hstart, binarrReadI8_cursor, binarrReadI32N_cursor, ok_bind]
  have hq : CpongPacket.ofCode ({ r with
      type := p.type, sync := p.sync, size := BitVec.ofNat 32 (payloadLength k) } : Packet F).type =
      some k := hk
  rw [deserializeData_cursor sender receiver hq]
  simp only [packetImage, frame, List.cons_append, List.nil_append]

theorem packetSerialize_read (sender receiver : Host F) {k : CpongPacket} {p : Packet F}
    (hk : CpongPacket.ofCode p.type = some k) (r : Packet F) {block : List Byte}
    (hblock : block.length = maxPacketSize) :
    ∃ barr, packetSerialize sender (binarrNew block) p = .ok (true, barr) ∧
      barr.size ≤ maxPacketSize ∧
      (barr.buf.drop 2).take 4 = store .big 4 (BitVec.ofNat 32 (barr.size - packetHeaderSize) : I32) ∧
      ∀ rest size index, ∃ barr',
        packetDeserialize receiver r ⟨barr.buf.take barr.size ++ rest, size, index⟩ =
          .ok (true, packetImage (receivedFloat sender) sender.endian receiver.endian k p r, barr') := by
  have hle := payloadLength_le k
  have hroom : packetHeaderSize + payloadLength k ≤ block.length := by
    rw [hblock, packetHeaderSize, maxPacketSize]
    omega
  refine ⟨_, packetSerialize_new sender hk hroom, ?_, ?_, ?_⟩
  · rw [filled_size, length_frame, ← hblock]
    exact hroom
  · rw [filled_size, length_frame, Nat.add_sub_cancel_left]
    rfl
  · intro rest size index
    rw [filled_size, filled_buf, List.take_left, packetDeserialize_frame sender receiver hk]
    exact ⟨_, rfl⟩

variable [IsStrictOrderedRing F]

theorem receivedFloat_eq_quantize (host : Host F) {x : F} (h : |x * 10000| < 2 ^ 31) :
    receivedFloat host x = quantize x := by
  rw [receivedFloat, wireFloat, int32OfFloat_toInt host h, quantize, floatScale]

/-- Whole numbers come over the wire as they are. -/
theorem receivedFloat_intCast (host : Host F) {n : Int} (h : |n| < 200000) :
    receivedFloat host (n : F) = n := by
  have hscaled : (n : F) * 10000 = ((n * 10000 : Int) : F) := by push_cast; rfl
  have hfits : |(n : F) * 10000| < 2 ^ 31 := by
    rw [hscaled, ← Int.cast_abs, abs_mul]
    have hlt : |n| * |10000| < 2 ^ 31 := by
      rw [abs_of_pos (by decide : (0 : Int) < 10000)]
      omega
    exact_mod_cast hlt
  rw [receivedFloat_eq_quantize host hfits, quantize, hscaled, Lib.trunc_intCast]
  push_cast
  field_simp

theorem packetImage_receivedFloat {sender : Host F} {k : CpongPacket} {p : Packet F}
    (hfloat : ∀ x ∈ carriedFloats p.data.state k, |x * 10000| < 2 ^ 31) (sendEnd recvEnd : Endian)
    (r : Packet F) : packetImage (receivedFloat sender) sendEnd recvEnd k p r =
      packetImage quantize sendEnd recvEnd k p r := by
  simp only [packetImage]
  rw [takeFloats_congr _ fun x hx => receivedFloat_eq_quantize sender (hfloat x hx)]

/-- Every packet of a known type whose floats fit the wire arrives as sent, up to the
precision of the wire. The size that arrives is the one the serialiser patched in, and
the members of the union that share a word with a field of the type share its value. -/
theorem packet_roundTrip (sender receiver : Host F) (k : CpongPacket) (p r : Packet F)
    (htype : p.type = k.code)
    (hfloat : ∀ x ∈ carriedFloats p.data.state k, |x * 10000| < 2 ^ 31)
    (block : List Byte) (hblock : block.length = maxPacketSize) :
    ∃ barr, packetSerialize sender (binarrNew block) p = .ok (true, barr) ∧
      barr.size ≤ maxPacketSize ∧
      (barr.buf.drop 2).take 4 = store .big 4 (BitVec.ofNat 32 (barr.size - packetHeaderSize) : I32) ∧
      ∀ rest size index, ∃ barr',
        packetDeserialize receiver r ⟨barr.buf.take barr.size ++ rest, size, index⟩ =
          .ok (true, packetImage quantize sender.endian receiver.endian k p r, barr') := by
  have hk : CpongPacket.ofCode p.type = some k := htype ▸ CpongPacket.ofCode_code k
  rw [← packetImage_receivedFloat hfloat]
  exact packetSerialize_read sender receiver hk r hblock

end Wire

def ballPacket : Packet ℚ :=
  let zero : PongState ℚ := Packet.zero.data.state
  { (Packet.zero : Packet ℚ) with
    type := CpongPacket.state.code
    sync := 3
    data := ⟨{ zero with ball := { zero.ball with pos := ⟨-1 / 3, 160⟩ } }⟩ }

theorem packet_roundTrip_ballPacket :
    ∃ barr, packetSerialize ⟨.little, 0⟩ (binarrNew (List.replicate 200 0)) ballPacket =
        .ok (true, barr) ∧
      barr.size ≤ maxPacketSize ∧
      (barr.buf.drop 2).take 4 = store .big 4 (BitVec.ofNat 32 (barr.size - packetHeaderSize) : I32) ∧
      ∀ rest size index, ∃ barr',
        packetDeserialize ⟨.big, 0⟩ Packet.zero ⟨barr.buf.take barr.size ++ rest, size, index⟩ =
          .ok (true, packetImage quantize .little .big .state ballPacket Packet.zero, barr') := by
  refine packet_roundTrip ⟨.little, 0⟩ ⟨.big, 0⟩ .state ballPacket Packet.zero rfl ?_ _
    List.length_replicate
  simp only [carriedFloats, ballPacket, Packet.zero, GameObj.zero, Vector.zero,
    List.forall_mem_cons]
  norm_num [abs_lt]

/-- The `PACKET_INPUT` as `network_update` composes it: its size is left zero. -/
def inputPacket (sync : I8) (inputAccMs : I32) : Packet ℚ :=
  { (Packet.zero : Packet ℚ) with
    type := CpongPacket.input.code
    sync := sync
    data := (Packet.zero : Packet ℚ).data.setInputAccMs inputAccMs }

/-- The size that arrives is not the sender's, and `player_ids[0]`, which a `PACKET_INPUT`
does not carry, is overwritten with the input. -/
theorem packet_roundTrip_inputPacket :
    ∃ barr barr' q, packetSerialize ⟨.little, 0⟩ (binarrNew (List.replicate 200 0))
        (inputPacket 0 5) = .ok (true, barr) ∧
      packetDeserialize ⟨.little, 0⟩ (Packet.zero : Packet ℚ)
        ⟨barr.buf.take barr.size, barr.size, 0⟩ = .ok (true, q, barr') ∧
      (inputPacket 0 5).size = 0 ∧ q.size = 4 ∧
      (Packet.zero : Packet ℚ).data.state.playerIds 0 = 0 ∧ q.data.state.playerIds 0 = 5 := by
  have hk : CpongPacket.ofCode (inputPacket 0 5).type = some .input := by decide
  obtain ⟨barr, hser, -, -, hread⟩ := packetSerialize_read ⟨.little, 0⟩ ⟨.little, 0⟩ hk
    Packet.zero (List.length_replicate : (List.replicate 200 (0 : Byte)).length = 200)
  obtain ⟨barr', hread⟩ := hread [] barr.size 0
  rw [List.append_nil] at hread
  exact ⟨barr, barr', _, hser, hread, rfl, rfl, rfl, rfl⟩

end CPong
