import CPong.Leftovers

/-!
# What the result of a receipt means

The callers of `recv_packet` take the result 0 for a connection that the peer has closed and
-1 for an error. A frame without a payload has the result 0 as well.
-/

namespace CPong

set_option autoImplicit false

open Lib.Words
open Lib.Memory

/-- How the receipt of a whole frame ends, by the outcomes of the calls of `recv`. -/
def frameArrival (conn : Conn) : Arrival :=
  match arrival conn.script conn.stream.length packetHeaderSize with
  | .complete => arrival (scriptAfter conn.script conn.stream.length packetHeaderSize)
      (conn.stream.drop packetHeaderSize).length (sizeT (announcedSize conn.stream))
  | a => a

/-- The announced payload fits behind the header, if there is a header. -/
def AnnouncesRoom (conn : Conn) : Prop :=
  HeaderArrives conn → 0 ≤ (announcedSize conn.stream).toInt ∧
    (announcedSize conn.stream).toInt ≤ (maxPacketSize - packetHeaderSize : Nat)

/-- The result says what has become of the frame. -/
structure ResultMeans {F : Type} (conn : Conn) (r : RecvPacket F) : Prop where
  closed : r.res = 0 → frameArrival conn = .eof
  failed : r.res = -1 → frameArrival conn = .error
  received : r.res ≠ 0 → r.res ≠ -1 → frameArrival conn = .complete ∧
    r.res = packetHeaderSize + (announcedSize conn.stream).toInt ∧
      r.conn.stream = conn.stream.drop r.res.toNat

/-- The call waits for ever if the frame never comes to its end, and otherwise it returns
something of which `p` holds. -/
def EndsWith {α : Type} (conn : Conn) (call : Guarded α) (p : α → Prop) : Prop :=
  if frameArrival conn = .blocked then call = .error .blocked else ∃ r, call = .ok r ∧ p r

/-- What `recv_packet` does with a frame that fits, by the end of its receipt. -/
def FrameRecvd {F : Type} [Field F] (host : Host F) (block : PacketBlock) (result : Packet F)
    (conn : Conn) (a : Arrival) : Prop :=
  match a with
  | .complete => recvPacket host block result conn = if sizeT (announcedSize conn.stream) = 0 then
      .ok ⟨0, result, connAfter conn⟩
    else .ok ⟨frameLength conn, decoded host result (frameBuf block conn), connAfter conn⟩
  | .eof => ∃ conn', recvPacket host block result conn = .ok ⟨0, result, conn'⟩
  | .error => ∃ conn', recvPacket host block result conn = .ok ⟨-1, result, conn'⟩
  | .blocked => recvPacket host block result conn = .error .blocked

section
variable {F : Type} [Field F] (host : Host F) {block : PacketBlock} {result : Packet F}
  {conn : Conn}

theorem frameArrival_of_header (h : HeaderArrives conn) : frameArrival conn =
    arrival (scriptAfter conn.script conn.stream.length packetHeaderSize)
      (conn.stream.drop packetHeaderSize).length (sizeT (announcedSize conn.stream)) := by
  unfold frameArrival
  rw [h]

theorem HeaderArrives.of_frameArrival (h : frameArrival conn = .complete) :
    HeaderArrives conn := by
  unfold frameArrival at h
  split at h
  · assumption
  · rename_i hother
    exact absurd h hother

theorem FrameArrives.of_frameArrival (h : frameArrival conn = .complete)
    (hne : sizeT (announcedSize conn.stream) ≠ 0) : FrameArrives conn := by
  have hheader := HeaderArrives.of_frameArrival h
  rw [frameArrival_of_header hheader] at h
  exact ⟨hheader, h, Nat.pos_of_ne_zero hne⟩

theorem FrameArrives.frameArrival_eq (h : FrameArrives conn) : frameArrival conn = .complete := by
  rw [frameArrival_of_header h.header, h.payload]

theorem AnnouncesRoom.frameLength_le (h : AnnouncesRoom conn) (hheader : HeaderArrives conn) :
    frameLength conn ≤ maxPacketSize := by
  have hsize := (sizeT_le_iff (by decide) _).mpr (h hheader)
  unfold frameLength
  unfold maxPacketSize packetHeaderSize at *
  omega

theorem recvPacket_withoutHeader (block : PacketBlock) (result : Packet F)
    (hheader : ¬ HeaderArrives conn) :
    FrameRecvd host block result conn (frameArrival conn) := by
  have hspec := recvall_start block.headerRoom conn.script conn.stream
  unfold HeaderArrives at hheader
  have hnone : frameArrival conn = arrival conn.script conn.stream.length packetHeaderSize := by
    unfold frameArrival
    split
    · contradiction
    · rfl
  rw [hnone]
  cases harr : arrival conn.script conn.stream.length packetHeaderSize with
  | complete => exact absurd harr hheader
  | blocked =>
    rw [harr] at hspec
    rw [FrameRecvd, recvPacket, binarrNew, hspec]
    rfl
  | eof =>
    rw [harr] at hspec
    obtain ⟨r, hr, hres, -⟩ := hspec
    refine ⟨r.conn, ?_⟩
    rw [recvPacket_of_no_header host hres.le hr, hres]
  | error =>
    rw [harr] at hspec
    obtain ⟨r, hr, hres, -⟩ := hspec
    refine ⟨r.conn, ?_⟩
    rw [recvPacket_of_no_header host (by omega) hr, hres]

theorem recvPacket_withHeader (block : PacketBlock) (result : Packet F)
    (hheader : HeaderArrives conn) (hfit : frameLength conn ≤ maxPacketSize) :
    FrameRecvd host block result conn (frameArrival conn) := by
  have hroom : packetHeaderSize + sizeT (announcedSize conn.stream) ≤
      (overwrite block.val 0 (conn.stream.take packetHeaderSize)).length := by
    rw [length_headerBuf hheader block]
    exact hfit
  let script := scriptAfter conn.script conn.stream.length packetHeaderSize
  let stream := conn.stream.drop packetHeaderSize
  have hspec := recvall_start hroom script stream
  rw [← frameArrival_of_header hheader] at hspec
  have hrun : recvPacket host block result conn = recvPayload host (announcedSize conn.stream)
      (overwrite block.val 0 (conn.stream.take packetHeaderSize)) result ⟨stream, script⟩ :=
    recvPacket_afterHeader host hheader
  rw [recvPayload] at hrun
  cases harr : frameArrival conn with
  | complete =>
    have hpayload := recvall_complete hroom (frameArrival_of_header hheader ▸ harr)
    unfold FrameRecvd
    dsimp only
    split
    · rename_i hzero
      have hres : (sizeT (announcedSize conn.stream) : Int) = 0 := by exact_mod_cast hzero
      rw [hrun, hpayload, ok_bind, if_pos hres.le, hres]
      rfl
    · rename_i hne
      exact recvPacket_arrived host (.of_frameArrival harr hne) hfit block result
  | blocked =>
    rw [harr] at hspec
    rw [FrameRecvd, hrun, hspec]
    rfl
  | eof =>
    rw [harr] at hspec
    obtain ⟨r, hr, hres, -⟩ := hspec
    refine ⟨r.conn, ?_⟩
    rw [hrun, hr, ok_bind, if_pos hres.le, hres]
    rfl
  | error =>
    rw [harr] at hspec
    obtain ⟨r, hr, hres, -⟩ := hspec
    refine ⟨r.conn, ?_⟩
    rw [hrun, hr, ok_bind, if_pos (by omega), hres]
    rfl

theorem recvPacket_outcome (block : PacketBlock) (result : Packet F) (hroom : AnnouncesRoom conn) :
    FrameRecvd host block result conn (frameArrival conn) := by
  by_cases hheader : HeaderArrives conn
  · exact recvPacket_withHeader host block result hheader (hroom.frameLength_le hheader)
  · exact recvPacket_withoutHeader host block result hheader

theorem endsWith_iff_of_ok {α : Type} {call : Guarded α} {p : α → Prop} {r : α}
    (hcall : call = .ok r) (hreturns : frameArrival conn ≠ .blocked) :
    EndsWith conn call p ↔ p r := by
  rw [EndsWith, if_neg hreturns, hcall]
  constructor
  · rintro ⟨r', hr', hp⟩
    cases hr'
    exact hp
  · intro hp
    exact ⟨r, rfl, hp⟩

theorem sizeT_eq {size : I32} {b : Nat} (hb : b < 2 ^ 31) (h : 0 ≤ size.toInt ∧ size.toInt ≤ b) :
    (sizeT size : Int) = size.toInt := by
  have hle := (sizeT_le_iff hb size).mpr h
  have hself := (sizeT_le_iff (hle.trans_lt hb) size).mp le_rfl
  have hint : size.toInt.toNat < 2 ^ 31 := by omega
  have hother := (sizeT_le_iff hint size).mpr ⟨h.1, by omega⟩
  omega

theorem resultMeans_of_complete (harr : frameArrival conn = .complete)
    (hsize : (sizeT (announcedSize conn.stream) : Int) = (announcedSize conn.stream).toInt) :
    ResultMeans conn ⟨frameLength conn, decoded host result (frameBuf block conn),
      connAfter conn⟩ := by
  have hpos : 0 < (frameLength conn : Int) := by
    unfold frameLength packetHeaderSize
    omega
  refine ⟨fun h => absurd h hpos.ne', fun h => ?_, fun _ _ => ⟨harr, ?_, ?_⟩⟩
  · change (frameLength conn : Int) = -1 at h
    omega
  · rw [← hsize]
    exact Nat.cast_add _ _
  · exact List.drop_drop

/-- The result of `recv_packet` means what its callers take it for exactly when the frame has a
payload. -/
theorem recv_result_iff (block : PacketBlock) (result : Packet F) (hroom : AnnouncesRoom conn) :
    EndsWith conn (recvPacket host block result conn) (ResultMeans conn) ↔
      (HeaderArrives conn → announcedSize conn.stream ≠ 0) := by
  have houtcome := recvPacket_outcome host block result hroom
  constructor
  · intro hmeans hheader hzero
    have hsize : sizeT (announcedSize conn.stream) = 0 := by
      rw [hzero]
      rfl
    have harr : frameArrival conn = .complete := by
      rw [frameArrival_of_header hheader, hsize, arrival_zero]
    have hreturns : frameArrival conn ≠ .blocked := by
      rw [harr]
      decide
    rw [harr, FrameRecvd, if_pos hsize] at houtcome
    have hclosed := ((endsWith_iff_of_ok houtcome hreturns).mp hmeans).closed rfl
    rw [harr] at hclosed
    cases hclosed
  · intro hsome
    cases harr : frameArrival conn with
    | complete =>
      have hheader := HeaderArrives.of_frameArrival harr
      have hsize := sizeT_eq (by decide) (hroom hheader)
      have hne : sizeT (announcedSize conn.stream) ≠ 0 := by
        intro hzero
        rw [hzero] at hsize
        exact hsome hheader (BitVec.eq_of_toInt_eq hsize.symm)
      rw [harr, FrameRecvd, if_neg hne] at houtcome
      exact (endsWith_iff_of_ok houtcome (by rw [harr]; decide)).mpr
        (resultMeans_of_complete host harr hsize)
    | blocked =>
      rw [harr, FrameRecvd] at houtcome
      rwa [EndsWith, if_pos harr]
    | eof =>
      rw [harr] at houtcome
      obtain ⟨conn', hrun⟩ := houtcome
      apply (endsWith_iff_of_ok hrun (by rw [harr]; decide)).mpr
      exact ⟨fun _ => harr, fun h => (nomatch h), fun h => absurd rfl h⟩
    | error =>
      rw [harr] at houtcome
      obtain ⟨conn', hrun⟩ := houtcome
      apply (endsWith_iff_of_ok hrun (by rw [harr]; decide)).mpr
      exact ⟨fun h => (nomatch h), fun _ => harr, fun _ h => absurd rfl h⟩

/-- A `PACKET_PING` of which nothing but the header is sent. -/
def emptyPing : Conn := ⟨[0, 0, 0, 0, 0, 0], [.data 5]⟩

theorem recv_result_wholeInput :
    ∃ r, recvPacket (⟨.little, fun _ => 0⟩ : Host ℚ) (uniformBlock 0) Packet.zero wholeInput =
      .ok r ∧ r.res = 10 ∧ ResultMeans wholeInput r := by
  have hroom : AnnouncesRoom wholeInput := fun _ => by decide
  have harr : frameArrival wholeInput = .complete := by rfl
  have houtcome := recvPacket_outcome (⟨.little, fun _ => 0⟩ : Host ℚ) (uniformBlock 0)
    Packet.zero hroom
  rw [harr, FrameRecvd, if_neg (by decide)] at houtcome
  refine ⟨_, houtcome, rfl, (endsWith_iff_of_ok houtcome (by rw [harr]; decide)).mp ?_⟩
  refine (recv_result_iff _ _ _ hroom).mpr ?_
  intro _
  decide

/-- The peer goes on, and `recv_packet` reports the end of the connection. -/
theorem recv_result_emptyPing :
    AnnouncesRoom emptyPing ∧
      ∃ r, recvPacket (⟨.little, fun _ => 0⟩ : Host ℚ) (uniformBlock 0) Packet.zero emptyPing =
        .ok r ∧ r.res = 0 ∧ frameArrival emptyPing = .complete ∧ ¬ ResultMeans emptyPing r := by
  have hroom : AnnouncesRoom emptyPing := fun _ => by decide
  have harr : frameArrival emptyPing = .complete := by rfl
  have houtcome := recvPacket_outcome (⟨.little, fun _ => 0⟩ : Host ℚ) (uniformBlock 0)
    Packet.zero hroom
  rw [harr, FrameRecvd, if_pos (by decide)] at houtcome
  refine ⟨hroom, _, houtcome, rfl, harr, ?_⟩
  intro hmeans
  cases harr.symm.trans (hmeans.closed rfl)

end

end CPong
