import CPong.Leftovers

/-!
# Encode after decode

What `packet_serialize` makes of a packet that `packet_deserialize` has read: the bytes that
were read, under the size that their type has.
-/

namespace CPong

set_option autoImplicit false

open Lib.Words
open Lib.Memory

section Host
variable {F : Type} [Field F] (host : Host F)

/-- `packet_deserialize` succeeds on the frames of the known types that are all there. -/
theorem packetDeserialize_known_iff (result : Packet F) (barr : Binarr) (packet : Packet F) :
    (∃ barr', packetDeserialize host result barr = .ok (true, packet, barr')) ↔
      packet = decoded host result barr.buf ∧
        ∃ k, byteAt barr.buf 0 = k.code ∧
          packetHeaderSize + payloadLength k ≤ barr.buf.length := by
  constructor
  · intro h
    obtain ⟨barr', h⟩ := h
    have hheader : 6 ≤ barr.buf.length := packetDeserialize_header host h
    unfold packetDeserialize at h
    simp (disch := omega) only [binarrReadI8_at, binarrReadI32N_at, ok_bind] at h
    cases hk : CpongPacket.ofCode (byteAt barr.buf 0) with
    | none =>
      simp only [deserializeData, hk, pure_eq_ok, Except.ok.injEq, Prod.mk.injEq] at h
      cases h.1
    | some k =>
      have hlen := (deserializeData_ok_iff host (by exact hk) _).mp ⟨_, h⟩
      obtain ⟨barr₁, hdata⟩ := deserializeData_at host barr.size
        { result with
          type := byteAt barr.buf 0, sync := byteAt barr.buf 1, size := wordAt barr.buf 2 } hk
        hlen
      rw [hdata] at h
      cases h
      refine ⟨?_, k, CpongPacket.code_of_ofCode hk, hlen⟩
      simp only [decoded, hk]
  · intro h
    obtain ⟨rfl, k, htype, hlen⟩ := h
    have hk : CpongPacket.ofCode (byteAt barr.buf 0) = some k :=
      htype ▸ CpongPacket.ofCode_code k
    have hroom : 6 + payloadLength k ≤ barr.buf.length := hlen
    obtain ⟨barr₁, hdata⟩ := deserializeData_at host barr.size
      { result with
        type := byteAt barr.buf 0, sync := byteAt barr.buf 1, size := wordAt barr.buf 2 } hk hroom
    refine ⟨barr₁, ?_⟩
    unfold packetDeserialize decoded
    simp (disch := omega) only [binarrReadI8_at, binarrReadI32N_at, ok_bind, hdata, hk]

end Host

section Words
variable {buf : List Byte}

theorem take_one_byteAt {i : Nat} (h : i + 1 ≤ buf.length) :
    (buf.drop i).take 1 = [byteAt buf i] := by
  have hlen : ((buf.drop i).take 1).length = 1 := by
    rw [List.length_take, List.length_drop]
    omega
  rw [byteAt, ← store_byte .little, store_load .little rfl hlen]

theorem take_two_byteAt (h : 2 ≤ buf.length) :
    buf.take 2 = [byteAt buf 0, byteAt buf 1] := by
  have hfirst : (buf.drop 0).take 1 = [byteAt buf 0] := take_one_byteAt (by omega)
  have hsecond : (buf.drop 1).take 1 = [byteAt buf 1] := take_one_byteAt (by omega)
  rw [List.drop_zero] at hfirst
  rw [show 2 = 1 + 1 by rfl, List.take_add, hfirst, hsecond]
  rfl

/-- A range of the buffer, as the words that it holds. -/
theorem flatMap_store_wordAt {i n : Nat} (h : i + 4 * n ≤ buf.length) :
    ((List.range n).map fun j => wordAt buf (i + 4 * j)).flatMap (store .big 4) =
      (buf.drop i).take (4 * n) := by
  induction n with
  | zero => rfl
  | succ n ih =>
    have hlen : ((buf.drop (i + 4 * n)).take 4).length = 4 := by
      rw [List.length_take, List.length_drop]
      omega
    have hword : store .big 4 (wordAt buf (i + 4 * n)) = (buf.drop (i + 4 * n)).take 4 :=
      store_load .big rfl hlen
    have hsplit : 4 * (n + 1) = 4 * n + 4 := by omega
    rw [List.range_succ, List.map_append, List.flatMap_append, ih (by omega), List.map_cons,
      List.map_nil, List.flatMap_cons, List.flatMap_nil, List.append_nil, hword, hsplit,
      List.take_add, List.drop_drop]

end Words

section Union
variable {F : Type}

@[simp] theorem PacketData.dummy_setDummy (data : PacketData F) (e : Endian) (dummy : Byte) :
    (data.setDummy e dummy).dummy e = dummy := by
  have hlen : (dummy :: (store e 4 (data.state.playerIds 0)).tail).length = 4 := by
    rw [List.length_cons, List.length_tail, length_store]
  have hstore := store_load (w := 32) e rfl hlen
  simp only [PacketData.dummy, PacketData.setDummy, PacketData.setWord, Function.update_self,
    hstore, List.head?_cons, Option.getD_some]

end Union

section Wire
variable {F : Type} [Field F] [LinearOrder F] [FloorRing F] [IsStrictOrderedRing F]
  (host : Host F)

/-- The conversion of a float that was read does not round. -/
@[simp] theorem wireFloat_floatOf (word : I32) : wireFloat host (floatOf F word) = word := by
  have hscale : (floatScale : F) ≠ 0 := by
    rw [floatScale]
    norm_num
  have hlo := BitVec.le_toInt word
  have hhi := BitVec.toInt_lt (x := word)
  rw [wireFloat, floatOf, div_mul_cancel₀ _ hscale, int32OfFloat, Lib.trunc_intCast]
  rw [if_pos ⟨by simpa using hlo, by simpa using hhi⟩, BitVec.ofInt_toInt]

theorem carriedWords_decodedData (data : PacketData F) (byte : Byte) (word : Nat → I32)
    (k : CpongPacket) :
    carriedWords host (decodedData host.endian data byte word k) k =
      (List.range (payloadLength k / 4)).map word := by
  cases k with
  | ping => rfl
  | input => rfl
  | init =>
    simp only [carriedWords, carriedInts, carriedFloats, decodedData, objOf, List.map_cons,
      List.map_nil, wireFloat_floatOf]
    rfl
  | state =>
    simp only [carriedWords, carriedInts, carriedFloats, decodedData, paddleOf, List.map_cons,
      List.map_nil, wireFloat_floatOf]
    rfl

theorem payload_decodedData (data : PacketData F) {buf : List Byte} {i : Nat} {k : CpongPacket}
    (h : i + payloadLength k ≤ buf.length) :
    payload host k (decodedData host.endian data (byteAt buf i)
      (fun j => wordAt buf (i + 4 * j)) k) = (buf.drop i).take (payloadLength k) := by
  have hwords := carriedWords_decodedData host data (byteAt buf i)
    (fun j => wordAt buf (i + 4 * j)) k
  cases k with
  | ping =>
    rw [payload, decodedData, PacketData.dummy_setDummy]
    exact (take_one_byteAt h).symm
  | input =>
    rw [payload, hwords]
    exact flatMap_store_wordAt h
  | init =>
    rw [payload, hwords]
    exact flatMap_store_wordAt h
  | state =>
    rw [payload, hwords]
    exact flatMap_store_wordAt h

/-- The frame at the start of `buf`, with the size that the type of its payload has. -/
def sizedFrame (k : CpongPacket) (buf : List Byte) : List Byte :=
  buf.take 2 ++ (store .big 4 (BitVec.ofNat 32 (payloadLength k) : I32) ++
    (buf.drop packetHeaderSize).take (payloadLength k))

theorem frame_decoded (result : Packet F) {buf : List Byte} {k : CpongPacket}
    (htype : byteAt buf 0 = k.code) (h : packetHeaderSize + payloadLength k ≤ buf.length) :
    frame host k (decoded host result buf) = sizedFrame k buf := by
  have hk : CpongPacket.ofCode (byteAt buf 0) = some k := htype ▸ CpongPacket.ofCode_code k
  have hroom : 6 + payloadLength k ≤ buf.length := h
  have hpayload := payload_decodedData host result.data hroom
  rw [frame, sizedFrame, take_two_byteAt (by omega)]
  simp only [decoded, hk, hpayload, packetHeaderSize]

/-- One host on the way of a packet: what its packet variable held before, and the block
that it serialises into. -/
structure Relay (F : Type) where
  host : Host F
  left : Packet F
  block : PacketBlock

/-- A host reads a packet and sends it on; nothing goes out where it cannot read it. -/
def Relay.pass (relay : Relay F) (bytes : List Byte) : Guarded (List Byte) := do
  let (known, packet, _) ← packetDeserialize relay.host relay.left ⟨bytes, bytes.length, 0⟩
  if known then
    let (_, barr) ← packetSerialize relay.host (binarrNew relay.block.val) packet
    return barr.buf.take barr.size
  else
    return []

theorem packetSerialize_decoded (result : Packet F) {buf block : List Byte} {k : CpongPacket}
    (htype : byteAt buf 0 = k.code) (h : packetHeaderSize + payloadLength k ≤ buf.length)
    (hblock : packetHeaderSize + payloadLength k ≤ block.length) :
    ∃ barr, packetSerialize host (binarrNew block) (decoded host result buf) = .ok (true, barr) ∧
      barr.size = packetHeaderSize + payloadLength k ∧
      barr.buf.take barr.size = sizedFrame k buf := by
  have hk : CpongPacket.ofCode (byteAt buf 0) = some k := htype ▸ CpongPacket.ofCode_code k
  have hdecoded : CpongPacket.ofCode (decoded host result buf).type = some k := by
    simp only [decoded, hk]
  refine ⟨_, packetSerialize_new host hdecoded hblock, ?_, ?_⟩
  · rw [filled_size, length_frame]
  · rw [filled_size, filled_buf, List.take_left, frame_decoded host result htype h]

theorem Relay.pass_eq (relay : Relay F) {bytes : List Byte} {k : CpongPacket}
    (htype : byteAt bytes 0 = k.code) (h : packetHeaderSize + payloadLength k ≤ bytes.length) :
    relay.pass bytes = .ok (sizedFrame k bytes) := by
  have hblock : packetHeaderSize + payloadLength k ≤ relay.block.val.length := by
    have hle := payloadLength_le k
    rw [relay.block.property]
    simp only [packetHeaderSize, maxPacketSize]
    omega
  obtain ⟨barr', hread⟩ := (packetDeserialize_known_iff relay.host relay.left
    ⟨bytes, bytes.length, 0⟩ _).mpr ⟨rfl, k, htype, h⟩
  obtain ⟨barr, hser, -, hbytes⟩ := packetSerialize_decoded relay.host relay.left htype h hblock
  simp only [Relay.pass, hread, ok_bind, if_true, hser, pure_eq_ok, hbytes]

section Sized
variable {buf : List Byte} {k : CpongPacket}

theorem length_sizedFrame (h : packetHeaderSize + payloadLength k ≤ buf.length) :
    (sizedFrame k buf).length = packetHeaderSize + payloadLength k := by
  simp only [packetHeaderSize] at h
  simp only [sizedFrame, List.length_append, List.length_take, List.length_drop, length_store,
    packetHeaderSize]
  omega

theorem byteAt_sizedFrame (h : packetHeaderSize + payloadLength k ≤ buf.length) :
    byteAt (sizedFrame k buf) 0 = byteAt buf 0 := by
  have hlen : 2 ≤ buf.length := by
    simp only [packetHeaderSize] at h
    omega
  rw [sizedFrame, take_two_byteAt hlen]
  simp [byteAt]

/-- The size is the one field that a relay rewrites, and it rewrites it once. -/
theorem sizedFrame_sizedFrame (h : packetHeaderSize + payloadLength k ≤ buf.length) :
    sizedFrame k (sizedFrame k buf) = sizedFrame k buf := by
  simp only [packetHeaderSize] at h
  have hcodes : (buf.take 2).length = 2 := by
    rw [List.length_take]
    omega
  have hpayload : ((buf.drop packetHeaderSize).take (payloadLength k)).length =
      payloadLength k := by
    rw [List.length_take, List.length_drop, packetHeaderSize]
    omega
  have hsize := length_store .big 4 (BitVec.ofNat 32 (payloadLength k) : I32)
  unfold sizedFrame
  generalize buf.take 2 = codes at hcodes ⊢
  generalize (buf.drop packetHeaderSize).take (payloadLength k) = payload at hpayload ⊢
  generalize store .big 4 (BitVec.ofNat 32 (payloadLength k) : I32) = size at hsize ⊢
  have hheader : (codes ++ size).length = packetHeaderSize := by
    rw [List.length_append, hcodes, hsize, packetHeaderSize]
  rw [List.take_left' hcodes, ← List.append_assoc codes size payload, List.drop_left' hheader,
    ← hpayload, List.take_length, List.append_assoc]

end Sized

theorem foldlM_relay (relays : List (Relay F)) {buf : List Byte} {k : CpongPacket}
    (htype : byteAt buf 0 = k.code) (h : packetHeaderSize + payloadLength k ≤ buf.length) :
    relays.foldlM (fun bytes relay => relay.pass bytes) (sizedFrame k buf) =
      .ok (sizedFrame k buf) := by
  have htype' : byteAt (sizedFrame k buf) 0 = k.code := (byteAt_sizedFrame h).trans htype
  have hlen : packetHeaderSize + payloadLength k ≤ (sizedFrame k buf).length :=
    (length_sizedFrame h).ge
  induction relays with
  | nil => rfl
  | cons relay relays ih =>
    rw [List.foldlM_cons, relay.pass_eq htype' hlen, sizedFrame_sizedFrame h, ok_bind, ih]

/-- A packet that was decoded encodes to the bytes that it was decoded from, under the size
of its type. No word of it changes, in one relay or in a chain of them. -/
theorem packetSerialize_undoes {result packet : Packet F} {barr barr' : Binarr}
    (h : packetDeserialize host result barr = .ok (true, packet, barr')) :
    ∃ k : CpongPacket, byteAt barr.buf 0 = k.code ∧
      packetHeaderSize + payloadLength k ≤ barr.buf.length ∧
      (∀ block : List Byte, packetHeaderSize + payloadLength k ≤ block.length →
        ∃ out, packetSerialize host (binarrNew block) packet = .ok (true, out) ∧
          out.size = packetHeaderSize + payloadLength k ∧
          out.buf.take out.size = barr.buf.take 2 ++
            (store .big 4 (BitVec.ofNat 32 (payloadLength k) : I32) ++
              (barr.buf.drop packetHeaderSize).take (payloadLength k)) ∧
          ∀ relays : List (Relay F),
            relays.foldlM (fun bytes relay => relay.pass bytes) (out.buf.take out.size) =
              .ok (out.buf.take out.size)) ∧
      ∀ word : I32, wireFloat host (floatOf F word) = word := by
  obtain ⟨rfl, k, htype, hlen⟩ := (packetDeserialize_known_iff host result barr packet).mp ⟨_, h⟩
  refine ⟨k, htype, hlen, ?_, fun word => wireFloat_floatOf host word⟩
  intro block hblock
  obtain ⟨out, hser, hsize, hbytes⟩ := packetSerialize_decoded host result htype hlen hblock
  refine ⟨out, hser, hsize, hbytes, ?_⟩
  intro relays
  rw [hbytes]
  exact foldlM_relay relays htype hlen

end Wire

/-- A `PACKET_INPUT` that announces a wrong size and carries the least 32-bit word. -/
def leastInput : List Byte := [1, 7, 255, 255, 255, 255, 128, 0, 0, 0]

theorem packetSerialize_undoes_leastInput :
    ∃ packet barr', packetDeserialize (⟨.little, fun _ => 0⟩ : Host ℚ) Packet.zero
        ⟨leastInput, 10, 0⟩ = .ok (true, packet, barr') ∧
      ∃ out, packetSerialize ⟨.little, fun _ => 0⟩ (binarrNew (List.replicate 200 0)) packet =
          .ok (true, out) ∧
        out.buf.take out.size = [1, 7, 0, 0, 0, 4, 128, 0, 0, 0] := by
  have htype : byteAt leastInput 0 = CpongPacket.input.code := rfl
  obtain ⟨barr', hread⟩ := (packetDeserialize_known_iff (⟨.little, fun _ => 0⟩ : Host ℚ)
    Packet.zero ⟨leastInput, 10, 0⟩ _).mpr ⟨rfl, .input, htype, by decide⟩
  obtain ⟨k, hk, -, hser, -⟩ := packetSerialize_undoes _ hread
  obtain rfl : k = .input := by
    have hcode := CpongPacket.ofCode_code k
    rw [← hk] at hcode
    exact (Option.some.inj hcode).symm
  have hroom :
      packetHeaderSize + payloadLength .input ≤ (List.replicate 200 (0 : Byte)).length := by
    rw [List.length_replicate]
    decide
  obtain ⟨out, hout, -, hbytes, -⟩ := hser _ hroom
  exact ⟨_, barr', hread, out, hout, hbytes⟩

end CPong
