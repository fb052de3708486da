import CPong.Codec
import CPong.RecvBounds

/-!
# What was in the buffer before

`packet_deserialize` reads a payload of the length that its type has, from a buffer in which
`recv_packet` has written as many bytes as the header announces. The rest of the buffer is as
`malloc` returned it.
-/

namespace CPong

set_option autoImplicit false

open Lib.Words
open Lib.Memory

/-- The big-endian word at an index of the buffer. -/
def wordAt (buf : List Byte) (i : Nat) : I32 := load .big ((buf.drop i).take 4)

def byteAt (buf : List Byte) (i : Nat) : Byte := load .little ((buf.drop i).take 1)

section Words
variable {F : Type} (host : Host F) {buf : List Byte} {size i : Nat}

theorem binarrReadI8_at (h : i + 1 ≤ buf.length) :
    binarrReadI8 ⟨buf, size, i⟩ = .ok (byteAt buf i, ⟨buf, size, i + 1⟩) := by
  rw [binarrReadI8, binarrRead, readAt, guardRange_eq_ok h]
  rfl

theorem binarrReadI32N_at (h : i + 4 ≤ buf.length) :
    binarrReadI32N host ⟨buf, size, i⟩ = .ok (wordAt buf i, ⟨buf, size, i + 4⟩) := by
  have hlen : ((buf.drop i).take 4).length = 4 := by
    rw [List.length_take, List.length_drop]
    omega
  have hword : ntohl host (load host.endian ((buf.drop i).take 4)) = wordAt buf i :=
    netOrder_load host.endian rfl hlen
  rw [binarrReadI32N, binarrReadI32, binarrRead, readAt, guardRange_eq_ok h]
  simp only [ok_bind, pure_eq_ok, hword]

variable [Field F]

def floatOf (F : Type) [Field F] (word : I32) : F := (word.toInt : F) / floatScale

theorem binarrReadFloatN_at (h : i + 4 ≤ buf.length) :
    binarrReadFloatN host ⟨buf, size, i⟩ = .ok (floatOf F (wordAt buf i), ⟨buf, size, i + 4⟩) := by
  rw [binarrReadFloatN, binarrReadI32N_at host h]
  rfl

def objOf (obj : GameObj F) (word : Nat → I32) (j : Nat) : GameObj F :=
  { obj with
    pos := ⟨floatOf F (word j), floatOf F (word (j + 1))⟩
    velocity := ⟨floatOf F (word (j + 2)), floatOf F (word (j + 3))⟩
    size := ⟨floatOf F (word (j + 4)), floatOf F (word (j + 5))⟩ }

def paddleOf (paddle : GameObj F) (word : Nat → I32) (j : Nat) : GameObj F :=
  { paddle with
    pos := { paddle.pos with y := floatOf F (word j) }
    velocity := ⟨floatOf F (word (j + 1)), floatOf F (word (j + 2))⟩ }

/-- The data of a packet of type `k`, by the first byte and the words of its payload. -/
def decodedData (e : Endian) (data : PacketData F) (byte : Byte) (word : Nat → I32) :
    CpongPacket → PacketData F
  | .ping => data.setDummy e byte
  | .input => data.setInputAccMs (word 0)
  | .init => ⟨{
      playerIds := ![word 0, word 1]
      ownIdIndex := word 2
      score := ![word 3, word 4]
      player1 := objOf data.state.player1 word 5
      player2 := objOf data.state.player2 word 11
      ball := objOf data.state.ball word 17
      boxSize := ⟨floatOf F (word 23), floatOf F (word 24)⟩ }⟩
  | .state => ⟨{ data.state with
      player1 := paddleOf data.state.player1 word 0
      player2 := paddleOf data.state.player2 word 3
      ball := { data.state.ball with
        pos := ⟨floatOf F (word 6), floatOf F (word 7)⟩
        velocity := ⟨floatOf F (word 8), floatOf F (word 9)⟩ } }⟩

theorem readObj_at (obj : GameObj F) (h : i + 24 ≤ buf.length) :
    readObj host obj ⟨buf, size, i⟩ =
      .ok (objOf obj (fun j => wordAt buf (i + 4 * j)) 0, ⟨buf, size, i + 24⟩) := by
  unfold readObj
  simp (disch := omega) only [binarrReadFloatN_at, ok_bind, pure_eq_ok]
  rfl

theorem readPaddle_at (paddle : GameObj F) (h : i + 12 ≤ buf.length) :
    readPaddle host paddle ⟨buf, size, i⟩ =
      .ok (paddleOf paddle (fun j => wordAt buf (i + 4 * j)) 0, ⟨buf, size, i + 12⟩) := by
  unfold readPaddle
  simp (disch := omega) only [binarrReadFloatN_at, ok_bind, pure_eq_ok]
  rfl

theorem deserializeData_at (size : Nat) (packet : Packet F) {k : CpongPacket}
    (hk : CpongPacket.ofCode packet.type = some k) (h : i + payloadLength k ≤ buf.length) :
    ∃ barr, deserializeData host packet ⟨buf, size, i⟩ = .ok (true, { packet with
      data := (decodedData host.endian packet.data (byteAt buf i)
        (fun j => wordAt buf (i + 4 * j)) k) }, barr) := by
  unfold deserializeData
  rw [hk]
  cases k <;> simp only [payloadLength] at h
  case ping =>
    simp (disch := omega) only [binarrReadI8_at, ok_bind, pure_eq_ok]
    exact ⟨_, rfl⟩
  case input =>
    simp (disch := omega) only [binarrReadI32N_at, ok_bind, pure_eq_ok]
    exact ⟨_, rfl⟩
  case init =>
    simp (disch := omega) only [binarrReadI32N_at, binarrReadFloatN_at, readObj_at, ok_bind,
      pure_eq_ok]
    exact ⟨_, rfl⟩
  case state =>
    simp (disch := omega) only [binarrReadFloatN_at, readPaddle_at, ok_bind, pure_eq_ok]
    exact ⟨_, rfl⟩

/-- The packet that `packet_deserialize` makes of the bytes of the buffer. -/
def decoded (result : Packet F) (buf : List Byte) : Packet F :=
  let packet := { result with type := byteAt buf 0, sync := byteAt buf 1, size := wordAt buf 2 }
  match CpongPacket.ofCode packet.type with
  | some k => { packet with
      data := (decodedData host.endian packet.data (byteAt buf 6)
        (fun j => wordAt buf (6 + 4 * j)) k) }
  | none => packet

theorem packetDeserialize_at (size i : Nat) (result : Packet F) (h : 106 ≤ buf.length) :
    ∃ known barr, packetDeserialize host result ⟨buf, size, i⟩ =
      .ok (known, decoded host result buf, barr) := by
  unfold packetDeserialize decoded
  simp (disch := omega) only [binarrReadI8_at, binarrReadI32N_at, ok_bind]
  cases hk : CpongPacket.ofCode (byteAt buf 0) with
  | none =>
    unfold deserializeData
    simp only [hk]
    exact ⟨false, _, rfl⟩
  | some k =>
    have hroom : 6 + payloadLength k ≤ buf.length := by
      have hle := payloadLength_le k
      omega
    obtain ⟨barr, hdata⟩ := deserializeData_at host size
      { result with type := byteAt buf 0, sync := byteAt buf 1, size := wordAt buf 2 } hk hroom
    exact ⟨true, barr, hdata⟩

theorem decodedData_congr (e : Endian) (data : PacketData F) {byte byte' : Byte}
    {word word' : Nat → I32} {k : CpongPacket} (hbyte : byte = byte')
    (hword : ∀ j, 4 * j + 4 ≤ payloadLength k → word j = word' j) :
    decodedData e data byte word k = decodedData e data byte' word' k := by
  cases k with
  | ping => rw [decodedData, decodedData, hbyte]
  | input => rw [decodedData, decodedData, hword 0 (by decide)]
  | init =>
    have hwords (j : Nat) (hj : j < 25) : word j = word' j := by
      apply hword
      change 4 * j + 4 ≤ 100
      omega
    simp (disch := omega) only [decodedData, objOf, hwords]
  | state =>
    have hwords (j : Nat) (hj : j < 10) : word j = word' j := by
      apply hword
      change 4 * j + 4 ≤ 40
      omega
    simp (disch := omega) only [decodedData, paddleOf, hwords]

/-- Only the bytes of the header and of the type's payload are read. -/
theorem decoded_congr (result : Packet F) {buf' : List Byte} {m : Nat}
    (hbytes : buf.take m = buf'.take m) (hheader : 6 ≤ m)
    (hpayload : ∀ k, CpongPacket.ofCode (byteAt buf 0) = some k → 6 + payloadLength k ≤ m) :
    decoded host result buf = decoded host result buf' := by
  have hpart (j n : Nat) (hj : j + n ≤ m) : (buf.drop j).take n = (buf'.drop j).take n := by
    have hcut (bs : List Byte) : (bs.drop j).take n = ((bs.take m).drop j).take n := by
      rw [List.drop_take, List.take_take, Nat.min_eq_left (by omega)]
    rw [hcut buf, hbytes, ← hcut]
  have hbyte (j : Nat) (hj : j + 1 ≤ m) : byteAt buf j = byteAt buf' j := by
    rw [byteAt, hpart j 1 hj, byteAt]
  have hword (j : Nat) (hj : j + 4 ≤ m) : wordAt buf j = wordAt buf' j := by
    rw [wordAt, hpart j 4 hj, wordAt]
  unfold decoded
  rw [← hbyte 0 (by omega), ← hbyte 1 (by omega), ← hword 2 (by omega)]
  cases hk : CpongPacket.ofCode (byteAt buf 0) with
  | none => simp only [hk]
  | some k =>
    have hm := hpayload k hk
    have hpos := payloadLength_pos k
    have hwords (j : Nat) (hj : 4 * j + 4 ≤ payloadLength k) :
        wordAt buf (6 + 4 * j) = wordAt buf' (6 + 4 * j) := hword _ (by omega)
    have hdata := decodedData_congr host.endian result.data (hbyte 6 (by omega)) hwords
    simp only [hk, hdata]

end Words

/-- What is left of the script once `n` bytes of a stream of `avail` have arrived. -/
def scriptAfter : List RecvOutcome → Nat → Nat → List RecvOutcome
  | script, avail, n =>
    if n = 0 then script
    else
      match script with
      | [] => []
      | .eintr :: script => scriptAfter script avail n
      | .error :: script => script
      | .eof :: script => script
      | .data more :: script =>
        let got := min (min (more + 1) n) avail
        if got = 0 then script else scriptAfter script (avail - got) (n - got)

theorem scriptAfter_zero (script : List RecvOutcome) (avail : Nat) :
    scriptAfter script avail 0 = script := by
  rw [scriptAfter.eq_def]
  exact if_pos rfl

theorem recvall_script {off n received : Nat} {script : List RecvOutcome} {stream buf : List Byte}
    (hn : received ≤ n) (hbuf : off + n ≤ buf.length)
    (harrives : arrival script stream.length (n - received) = .complete)
    {r : Received} (h : recvall off n script stream buf received = .ok r) :
    r.conn.script = scriptAfter script stream.length (n - received) := by
  induction script generalizing received stream buf with
  | nil =>
    rcases hn.eq_or_lt with rfl | hlt
    · rw [recvall_done, Except.ok.injEq] at h
      rw [Nat.sub_self, scriptAfter_zero, ← h]
    · rw [arrival, if_neg (by omega)] at harrives
      cases harrives
  | cons o script ih =>
    rcases hn.eq_or_lt with rfl | hlt
    · rw [recvall_done, Except.ok.injEq] at h
      rw [Nat.sub_self, scriptAfter_zero, ← h]
    have hne : n - received ≠ 0 := by omega
    cases o with
    | eintr =>
      rw [recvall_room hlt hbuf] at h
      rw [arrival, if_neg hne] at harrives
      rw [scriptAfter, if_neg hne]
      exact ih hn hbuf harrives h
    | error =>
      rw [arrival, if_neg hne] at harrives
      cases harrives
    | eof =>
      rw [arrival, if_neg hne] at harrives
      cases harrives
    | data more =>
      have hgot : (stream.take (min (more + 1) (n - received))).length =
          min (min (more + 1) (n - received)) stream.length := List.length_take
      rw [recvall_room hlt hbuf] at h
      rw [arrival, if_neg hne] at harrives
      rw [scriptAfter, if_neg hne]
      simp only [← hgot] at h harrives ⊢
      generalize stream.take (min (more + 1) (n - received)) = got at h harrives hgot ⊢
      by_cases hlen : got.length = 0
      · rw [if_pos hlen] at harrives
        cases harrives
      · have hgne : got ≠ [] := fun hnil => hlen (by rw [hnil, List.length_nil])
        rw [if_neg hlen, ← List.length_drop, Nat.sub_sub] at harrives ⊢
        rw [if_neg hgne] at h
        have hbuf' : off + n ≤ (overwrite buf (off + received) got).length := by
          rwa [length_overwrite (by omega)]
        exact ih (by omega) hbuf' harrives h

theorem recvall_complete {off n : Nat} {script : List RecvOutcome} {stream buf : List Byte}
    (hbuf : off + n ≤ buf.length) (harrives : arrival script stream.length n = .complete) :
    recvall off n script stream buf 0 = .ok ⟨n, overwrite buf off (stream.take n), stream.drop n,
      scriptAfter script stream.length n⟩ := by
  have hspec := recvall_start hbuf script stream
  rw [harrives] at hspec
  obtain ⟨script', hrun, -, -⟩ := hspec
  have hscript : script' = scriptAfter script stream.length (n - 0) :=
    recvall_script (Nat.zero_le _) hbuf harrives hrun
  rw [hrun, hscript]
  rfl

/-- A receipt that is not complete is not successful. -/
theorem recvall_incomplete {off n : Nat} {script : List RecvOutcome} {stream buf : List Byte}
    (hbuf : off + n ≤ buf.length) (harrives : arrival script stream.length n ≠ .complete)
    {r : Received} (h : recvall off n script stream buf 0 = .ok r) : r.res ≤ 0 := by
  have hspec := recvall_start hbuf script stream
  cases harr : arrival script stream.length n with
  | complete => exact absurd harr harrives
  | blocked =>
    rw [harr] at hspec
    cases hspec.symm.trans h
  | eof =>
    rw [harr] at hspec
    obtain ⟨r', hrun, hres, -⟩ := hspec
    cases hrun.symm.trans h
    exact hres.le
  | error =>
    rw [harr] at hspec
    obtain ⟨r', hrun, hres, -⟩ := hspec
    cases hrun.symm.trans h
    omega

def frameLength (conn : Conn) : Nat := packetHeaderSize + sizeT (announcedSize conn.stream)

def frameType (conn : Conn) : Byte := byteAt conn.stream 0

/-- The header and all the bytes that it announces arrive, and there are some. -/
structure FrameArrives (conn : Conn) : Prop where
  header : HeaderArrives conn
  payload : arrival (scriptAfter conn.script conn.stream.length packetHeaderSize)
    (conn.stream.drop packetHeaderSize).length (sizeT (announcedSize conn.stream)) = .complete
  nonempty : 0 < sizeT (announcedSize conn.stream)

/-- The buffer once the frame is in it. -/
def frameBuf (block : PacketBlock) (conn : Conn) : List Byte :=
  overwrite block.val 0 (conn.stream.take (frameLength conn))

section Frame
variable {F : Type} [Field F] (host : Host F) {block : PacketBlock} {result : Packet F}
  {conn : Conn}

theorem FrameArrives.length_take (h : FrameArrives conn) :
    (conn.stream.take (frameLength conn)).length = frameLength conn := by
  have hpayload := le_of_arrival_complete h.payload
  have hheader := le_of_arrival_complete h.header
  rw [List.length_drop] at hpayload
  rw [List.length_take]
  unfold frameLength
  omega

/-- The buffer holds the frame and then what it held before. -/
theorem FrameArrives.buf_eq (h : FrameArrives conn) (block : PacketBlock) :
    frameBuf block conn =
      conn.stream.take (frameLength conn) ++ block.val.drop (frameLength conn) := by
  rw [frameBuf, overwrite, List.take_zero, List.nil_append, Nat.zero_add, h.length_take]

theorem recvPacket_afterHeader (harrives : HeaderArrives conn) :
    recvPacket host block result conn = recvPayload host (announcedSize conn.stream)
      (overwrite block.val 0 (conn.stream.take packetHeaderSize)) result
      ⟨conn.stream.drop packetHeaderSize,
        scriptAfter conn.script conn.stream.length packetHeaderSize⟩ := by
  have hrun := recvall_complete block.headerRoom harrives
  obtain ⟨type, sync, hhead⟩ := take_header (le_of_arrival_complete harrives)
  rw [hhead, overwrite, List.take_zero, List.nil_append, List.cons_append,
    List.cons_append] at hrun ⊢
  exact recvPacket_of_header host hrun

/-- The connection once the frame has been taken from it. -/
def connAfter (conn : Conn) : Conn :=
  ⟨(conn.stream.drop packetHeaderSize).drop (sizeT (announcedSize conn.stream)),
    scriptAfter (scriptAfter conn.script conn.stream.length packetHeaderSize)
      (conn.stream.drop packetHeaderSize).length (sizeT (announcedSize conn.stream))⟩

theorem length_headerBuf {conn : Conn} (h : HeaderArrives conn) (block : PacketBlock) :
    (overwrite block.val 0 (conn.stream.take packetHeaderSize)).length = maxPacketSize := by
  have hblock : block.val.length = maxPacketSize := block.property
  have hlen := List.length_take_of_le (le_of_arrival_complete h)
  rw [length_overwrite, hblock]
  rw [hlen, hblock]
  decide

theorem FrameArrives.length_frameBuf (h : FrameArrives conn)
    (hfit : frameLength conn ≤ maxPacketSize) (block : PacketBlock) :
    (frameBuf block conn).length = maxPacketSize := by
  have hblock : block.val.length = maxPacketSize := block.property
  rw [frameBuf, length_overwrite, hblock]
  rw [h.length_take, hblock, Nat.zero_add]
  exact hfit

/-- A frame that arrives and fits is received, and it is decoded from the buffer. -/
theorem recvPacket_arrived (h : FrameArrives conn) (hfit : frameLength conn ≤ maxPacketSize)
    (block : PacketBlock) (result : Packet F) :
    recvPacket host block result conn =
      .ok ⟨frameLength conn, decoded host result (frameBuf block conn), connAfter conn⟩ := by
  have hheader := le_of_arrival_complete h.header
  have hroom : packetHeaderSize + sizeT (announcedSize conn.stream) ≤
      (overwrite block.val 0 (conn.stream.take packetHeaderSize)).length := by
    rw [length_headerBuf h.header]
    exact hfit
  have hrun := recvall_complete hroom h.payload
  have hwhole : overwrite (overwrite block.val 0 (conn.stream.take packetHeaderSize))
      packetHeaderSize ((conn.stream.drop packetHeaderSize).take
        (sizeT (announcedSize conn.stream))) = frameBuf block conn := by
    have hblock : block.val.length = maxPacketSize := block.property
    have hbound : 0 + (conn.stream.take packetHeaderSize).length ≤ block.val.length := by
      rw [List.length_take_of_le hheader, hblock]
      decide
    have htwo := overwrite_overwrite (conn.stream.take packetHeaderSize)
      ((conn.stream.drop packetHeaderSize).take (sizeT (announcedSize conn.stream))) hbound
    rw [List.length_take_of_le hheader, Nat.zero_add, ← List.take_add] at htwo
    exact htwo
  rw [hwhole] at hrun
  have hpos := h.nonempty
  have hfull : 106 ≤ (frameBuf block conn).length := by
    rw [h.length_frameBuf hfit]
    decide
  obtain ⟨known, barr, hdecode⟩ := packetDeserialize_at host packetHeaderSize 0 result hfull
  rw [recvPacket_afterHeader host h.header, recvPayload, hrun]
  simp only [ok_bind]
  rw [if_neg (by omega), hdecode]
  rfl

theorem recvPayload_positive {packetSize : I32} {buf : List Byte} {r : RecvPacket F}
    (hbuf : buf.length = maxPacketSize)
    (h : recvPayload host packetSize buf result conn = .ok r) (hpos : 0 < r.res) :
    arrival conn.script conn.stream.length (sizeT packetSize) = .complete ∧
      0 < sizeT packetSize ∧ packetHeaderSize + sizeT packetSize ≤ maxPacketSize := by
  rw [recvPayload] at h
  by_cases hfit : packetHeaderSize + sizeT packetSize ≤ maxPacketSize
  swap
  · rw [recvall_outOfBounds _ (by omega)] at h
    · cases h
    · unfold maxPacketSize packetHeaderSize at hfit
      omega
  cases hrun : recvall packetHeaderSize (sizeT packetSize) conn.script conn.stream buf 0 with
  | error e =>
    rw [hrun] at h
    cases h
  | ok data =>
    rw [hrun, ok_bind] at h
    have hres : 0 < data.res := by
      by_contra hnot
      rw [if_pos (by omega), pure_eq_ok, Except.ok.injEq] at h
      rw [← h] at hpos
      exact hnot hpos
    have harrives : arrival conn.script conn.stream.length (sizeT packetSize) = .complete := by
      by_contra hincomplete
      have hnone := recvall_incomplete (hbuf ▸ hfit) hincomplete hrun
      omega
    refine ⟨harrives, ?_, hfit⟩
    rw [recvall_complete (hbuf ▸ hfit) harrives, Except.ok.injEq] at hrun
    rw [← hrun] at hres
    change (0 : Int) < (sizeT packetSize : Int) at hres
    exact_mod_cast hres

/-- Only a frame that has arrived and fits into the buffer is received. -/
theorem recvPacket_positive {r : RecvPacket F} (h : recvPacket host block result conn = .ok r)
    (hpos : 0 < r.res) : FrameArrives conn ∧ frameLength conn ≤ maxPacketSize := by
  by_cases hheader : HeaderArrives conn
  · rw [recvPacket_afterHeader host hheader] at h
    obtain ⟨hpayload, hsome, hfit⟩ :=
      recvPayload_positive host (length_headerBuf hheader block) h hpos
    exact ⟨⟨hheader, hpayload, hsome⟩, hfit⟩
  · cases hrun : recvall 0 packetHeaderSize conn.script conn.stream block.val 0 with
    | error e =>
      rw [recvPacket, binarrNew, hrun] at h
      cases h
    | ok header =>
      have hnone := recvall_incomplete block.headerRoom hheader hrun
      rw [recvPacket_of_no_header host hnone hrun, Except.ok.injEq] at h
      rw [← h] at hpos
      exact absurd hpos hnone.not_gt

end Frame

/-- The header announces fewer bytes than the payload of its type has. -/
def ShortFrame (conn : Conn) : Prop :=
  ∃ k, CpongPacket.ofCode (frameType conn) = some k ∧
    sizeT (announcedSize conn.stream) < payloadLength k

section Short
variable {F : Type} [Field F] (host : Host F) {block block' : PacketBlock} {result : Packet F}
  {conn : Conn}

theorem FrameArrives.frameType_eq (h : FrameArrives conn) (block : PacketBlock) :
    byteAt (frameBuf block conn) 0 = frameType conn := by
  have hlen : 1 ≤ frameLength conn := by
    unfold frameLength packetHeaderSize
    omega
  rw [h.buf_eq, byteAt, List.drop_zero, List.take_append_of_le_length, List.take_take,
    Nat.min_eq_left hlen]
  · rfl
  · rwa [h.length_take]

theorem FrameArrives.decoded_eq (h : FrameArrives conn) (hlong : ¬ ShortFrame conn)
    (block block' : PacketBlock) :
    decoded host result (frameBuf block conn) = decoded host result (frameBuf block' conn) := by
  have htake (block : PacketBlock) :
      (frameBuf block conn).take (frameLength conn) = conn.stream.take (frameLength conn) := by
    rw [h.buf_eq, List.take_append_of_le_length h.length_take.ge, List.take_take, Nat.min_self]
  apply decoded_congr host result (m := frameLength conn)
  · rw [htake, htake]
  · unfold frameLength packetHeaderSize
    omega
  · intro k hk
    rw [h.frameType_eq] at hk
    have hfull : ¬ sizeT (announcedSize conn.stream) < payloadLength k :=
      fun hshort => hlong ⟨k, hk, hshort⟩
    unfold frameLength packetHeaderSize
    omega

theorem floatOf_injective [CharZero F] : Function.Injective (floatOf F) := by
  intro word word' h
  have hscale : (floatScale : F) ≠ 0 := by
    unfold floatScale
    norm_num
  have hint : (word.toInt : F) = word'.toInt := (div_left_inj' hscale).mp h
  exact BitVec.eq_of_toInt_eq (by exact_mod_cast hint)

/-- The last word of a payload can be told from the data. -/
theorem lastWord_eq [CharZero F] {e : Endian} {data : PacketData F} {byte byte' : Byte}
    {word word' : Nat → I32} {k : CpongPacket} {j : Nat} (hj : 4 * j + 4 = payloadLength k)
    (h : decodedData e data byte word k = decodedData e data byte' word' k) :
    word j = word' j := by
  cases k with
  | ping =>
    change 4 * j + 4 = 1 at hj
    omega
  | input =>
    change 4 * j + 4 = 4 at hj
    obtain rfl : j = 0 := by omega
    exact congrArg PacketData.inputAccMs h
  | init =>
    change 4 * j + 4 = 100 at hj
    obtain rfl : j = 24 := by omega
    exact floatOf_injective (congrArg (fun data => data.state.boxSize.y) h)
  | state =>
    change 4 * j + 4 = 40 at hj
    obtain rfl : j = 9 := by omega
    exact floatOf_injective (congrArg (fun data => data.state.ball.velocity.y) h)

/-- The last byte that is read of a short frame is a byte of the block. -/
theorem FrameArrives.lastWord (h : FrameArrives conn) {j : Nat}
    (hshort : frameLength conn < 6 + (4 * j + 4)) (hfit : 6 + (4 * j + 4) ≤ maxPacketSize)
    (b : Byte) : (store .big 4 (wordAt (frameBuf (uniformBlock b) conn) (6 + 4 * j)))[3]? =
      some b := by
  have hroom : frameLength conn ≤ maxPacketSize := by omega
  have hlen : (((frameBuf (uniformBlock b) conn).drop (6 + 4 * j)).take 4).length = 4 := by
    rw [List.length_take, List.length_drop, h.length_frameBuf hroom]
    omega
  rw [wordAt, store_load .big rfl hlen, List.getElem?_take_of_lt (by decide), List.getElem?_drop,
    h.buf_eq, List.getElem?_append_right, h.length_take, List.getElem?_drop]
  · change (List.replicate maxPacketSize b)[_]? = some b
    rw [List.getElem?_replicate, if_pos]
    omega
  · rw [h.length_take]
    omega

theorem FrameArrives.decoded_ne [CharZero F] (h : FrameArrives conn) (hshort : ShortFrame conn) :
    decoded host result (frameBuf (uniformBlock 0) conn) ≠
      decoded host result (frameBuf (uniformBlock 255) conn) := by
  obtain ⟨k, hk, hlt⟩ := hshort
  have hpos := h.nonempty
  have hmax := payloadLength_le k
  obtain ⟨j, hj⟩ : ∃ j, 4 * j + 4 = payloadLength k := by
    cases k with
    | ping =>
      change _ < 1 at hlt
      omega
    | input => exact ⟨0, rfl⟩
    | init => exact ⟨24, rfl⟩
    | state => exact ⟨9, rfl⟩
  have hcut : frameLength conn < 6 + (4 * j + 4) := by
    unfold frameLength packetHeaderSize
    omega
  have hfit : 6 + (4 * j + 4) ≤ maxPacketSize := by
    unfold maxPacketSize
    omega
  intro hsame
  have hdata := congrArg Packet.data hsame
  simp only [decoded, h.frameType_eq, hk] at hdata
  have hword := lastWord_eq hj hdata
  have hzero := h.lastWord hcut hfit 0
  rw [hword, h.lastWord hcut hfit 255] at hzero
  exact absurd hzero (by decide)

/-- `recv_packet` returns the same for any two contents of the block, and it reports no short
frame, exactly when the frame that arrives is not short. -/
theorem decoded_from_frame_iff [CharZero F] (host : Host F) (result : Packet F) (conn : Conn) :
    ((∀ block block' r, recvPacket host block result conn = .ok r → 0 < r.res →
        recvPacket host block' result conn = .ok r) ↔
      (FrameArrives conn → ¬ ShortFrame conn)) ∧
    ((∀ block r, recvPacket host block result conn = .ok r → 0 < r.res → ¬ ShortFrame conn) ↔
      (FrameArrives conn → ¬ ShortFrame conn)) := by
  have hfits (hshort : ShortFrame conn) : frameLength conn ≤ maxPacketSize := by
    obtain ⟨k, -, hlt⟩ := hshort
    have hmax := payloadLength_le k
    unfold frameLength packetHeaderSize maxPacketSize
    omega
  have hpos : 0 < (frameLength conn : Int) := by
    unfold frameLength packetHeaderSize
    omega
  refine ⟨⟨?_, ?_⟩, ⟨?_, ?_⟩⟩
  · intro hsame harrives hshort
    have hrun (block : PacketBlock) := recvPacket_arrived host harrives (hfits hshort) block result
    have hother := hsame _ (uniformBlock 255) _ (hrun (uniformBlock 0)) hpos
    rw [hrun, Except.ok.injEq] at hother
    exact harrives.decoded_ne host hshort (congrArg RecvPacket.result hother).symm
  · intro hlong block block' r hrun hres
    obtain ⟨harrives, hfit⟩ := recvPacket_positive host hrun hres
    rw [recvPacket_arrived host harrives hfit] at hrun ⊢
    rw [← hrun, harrives.decoded_eq host (hlong harrives) block block']
  · intro hnone harrives hshort
    have hrun := recvPacket_arrived host harrives (hfits hshort) (uniformBlock 0) result
    exact hnone _ _ hrun hpos hshort
  · intro hlong block r hrun hres
    exact hlong (recvPacket_positive host hrun hres).1

end Short

/-- A `PACKET_INPUT` of 16 milliseconds. -/
def wholeInput : Conn := ⟨[CpongPacket.input.code, 0, 0, 0, 0, 4, 0, 0, 0, 16], [.data 6, .data 3]⟩

theorem decoded_from_wholeInput :
    ∃ r, recvPacket (⟨.little, fun _ => 0⟩ : Host ℚ) (uniformBlock 0) Packet.zero wholeInput =
        .ok r ∧
      recvPacket (⟨.little, fun _ => 0⟩ : Host ℚ) (uniformBlock 255) Packet.zero wholeInput =
        .ok r := by
  have hlong : ¬ ShortFrame wholeInput := by
    rintro ⟨k, hk, hlt⟩
    obtain rfl : CpongPacket.input = k := Option.some.inj hk
    exact absurd hlt (by decide)
  have harrives : FrameArrives wholeInput := ⟨by rfl, by decide, by decide⟩
  have hrun := recvPacket_arrived (⟨.little, fun _ => 0⟩ : Host ℚ) harrives (by decide)
    (uniformBlock 0) Packet.zero
  exact ⟨_, hrun, (decoded_from_frame_iff _ Packet.zero wholeInput).1.mpr (fun _ => hlong) _
    (uniformBlock 255) _ hrun (by decide)⟩

/-- A `PACKET_INPUT` whose header announces one byte, and the byte. -/
def shortInput : Conn := ⟨[CpongPacket.input.code, 0, 0, 0, 0, 1, 7], [.data 6, .data 0]⟩

theorem decoded_from_shortInput : ShortFrame shortInput ∧
    ∃ block block' r r', recvPacket (⟨.little, fun _ => 0⟩ : Host ℚ) block Packet.zero shortInput =
        .ok r ∧ 0 < r.res ∧
      recvPacket (⟨.little, fun _ => 0⟩ : Host ℚ) block' Packet.zero shortInput = .ok r' ∧
        r'.result ≠ r.result := by
  have hshort : ShortFrame shortInput := ⟨.input, rfl, by decide⟩
  have harrives : FrameArrives shortInput := ⟨by rfl, by decide, by decide⟩
  have hrun := recvPacket_arrived (⟨.little, fun _ => 0⟩ : Host ℚ) harrives (by decide)
  exact ⟨hshort, uniformBlock 0, uniformBlock 255, _, _, hrun _ Packet.zero, by decide,
    hrun _ Packet.zero, (harrives.decoded_ne _ hshort).symm⟩

end CPong
