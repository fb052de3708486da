import CPong.InputOverflow
import CPong.RecvResult

/-!
# Which input is credited

`on_input_ready` logs an error of `recv_packet` and then goes on with the packet that it has
not received.
-/

namespace CPong

set_option autoImplicit false

open Lib.Words
open Lib.Memory

def frameSync (conn : Conn) : I8 := byteAt conn.stream 1

/-- The `input_acc_ms` of a `PACKET_INPUT`. -/
def frameInput (conn : Conn) : I32 := wordAt conn.stream 6

section Frame
variable {F : Type} [Field F] (host : Host F) {conn : Conn}

/-- The bytes of the frame are those of the stream. -/
theorem FrameArrives.part (h : FrameArrives conn) (block : PacketBlock) {i n : Nat}
    (hle : i + n ≤ frameLength conn) :
    ((frameBuf block conn).drop i).take n = (conn.stream.drop i).take n := by
  have hlen := h.length_take
  rw [h.buf_eq, List.drop_append_of_le_length (by omega), List.take_append_of_le_length,
    List.drop_take, List.take_take, Nat.min_eq_left (by omega)]
  rw [List.length_drop]
  omega

theorem FrameArrives.decoded_type (h : FrameArrives conn) (block : PacketBlock)
    (packet : Packet F) :
    (decoded host packet (frameBuf block conn)).type = frameType conn := by
  rw [← h.frameType_eq block]
  unfold decoded
  dsimp only
  split <;> rfl

theorem FrameArrives.decoded_sync (h : FrameArrives conn) (block : PacketBlock)
    (packet : Packet F) :
    (decoded host packet (frameBuf block conn)).sync = frameSync conn := by
  have hpart : byteAt (frameBuf block conn) 1 = frameSync conn := by
    unfold byteAt frameSync byteAt
    rw [h.part block (by unfold frameLength packetHeaderSize; omega)]
  rw [← hpart]
  unfold decoded
  dsimp only
  split <;> rfl

theorem FrameArrives.decoded_input (h : FrameArrives conn)
    (htype : frameType conn = CpongPacket.input.code) (block : PacketBlock) (packet : Packet F) :
    (decoded host packet (frameBuf block conn)).data.inputAccMs =
      wordAt (frameBuf block conn) 6 := by
  have hk : CpongPacket.ofCode (byteAt (frameBuf block conn) 0) = some .input := by
    rw [h.frameType_eq, htype]
    rfl
  unfold decoded
  simp only [hk]
  rfl

end Frame

section
variable {F : Type}

def IsPlayer (g : Globals F) (id : I32) : Prop := ∃ i, g.state.playerIds i = id

/-- A whole `PACKET_INPUT` of the current round has come from a player. -/
structure Genuine (g : Globals F) (id : I32) (conn : Conn) : Prop where
  arrives : frameArrival conn = .complete
  type : frameType conn = CpongPacket.input.code
  sync : frameSync conn = g.ssync
  payload : 4 ≤ sizeT (announcedSize conn.stream)
  player : IsPlayer g id

/-- What `on_input_ready` may do: it adds a genuine input to one accumulator, as a number and not
as a word that wraps. -/
structure Credited (g : Globals F) (id : I32) (conn : Conn) (g' : Globals F) : Prop where
  state : g'.state = g.state
  ssync : g'.ssync = g.ssync
  genuine : Genuine g id conn → ∃ i, g.state.playerIds i = id ∧
    (inputOf g' i).toInt = (inputOf g i).toInt + (frameInput conn).toInt ∧
      ∀ j, j ≠ i → inputOf g' j = inputOf g j
  other : ¬ Genuine g id conn → ∀ i, inputOf g' i = inputOf g i

/-- Nothing is wrong with the receipt: the payload fits, and if the client is a player, no `recv`
fails, no `PACKET_INPUT` of the round is shorter than its payload, and the accumulator has room
for what a genuine one brings. -/
structure SoundReceipt (g : Globals F) (id : I32) (conn : Conn) : Prop where
  room : AnnouncesRoom conn
  noError : IsPlayer g id → frameArrival conn ≠ .error
  whole : IsPlayer g id → frameArrival conn = .complete →
    frameType conn = CpongPacket.input.code → frameSync conn = g.ssync →
      sizeT (announcedSize conn.stream) = 0 ∨ 4 ≤ sizeT (announcedSize conn.stream)
  fits : Genuine g id conn → ∀ i, Credits g.state.playerIds id i →
    InInt32 ((inputOf g i).toInt + (frameInput conn).toInt)

theorem Genuine.frameArrives {g : Globals F} {id : I32} {conn : Conn} (h : Genuine g id conn) :
    FrameArrives conn := by
  have hpayload := h.payload
  exact .of_frameArrival h.arrives (by omega)

theorem exists_credits {g : Globals F} {id : I32} (h : IsPlayer g id) :
    ∃ i, Credits g.state.playerIds id i := by
  by_cases h0 : g.state.playerIds 0 = id
  · exact ⟨0, h0, fun h => absurd h (by decide)⟩
  · obtain ⟨i, hi⟩ := h
    exact ⟨i, hi, fun _ => h0⟩

theorem Credits.unique {ids : Fin 2 → I32} {id : I32} {i j : Fin 2} (hi : Credits ids id i)
    (hj : Credits ids id j) : i = j := by
  unfold Credits at hi hj
  match i, j with
  | 0, 0 => rfl
  | 1, 1 => rfl
  | 0, 1 => exact absurd hi.1 (hj.2 rfl)
  | 1, 0 => exact absurd hj.1 (hi.2 rfl)

/-- The input of a player goes to one accumulator. -/
theorem accumulate_player {g : Globals F} {id : I32} (h : IsPlayer g id) (inputAccMs : I32) :
    ∃ i, Credits g.state.playerIds id i ∧
      inputOf (onInputReadyAccumulate g id inputAccMs) i = inputOf g i + inputAccMs ∧
        ∀ j, j ≠ i → inputOf (onInputReadyAccumulate g id inputAccMs) j = inputOf g j := by
  obtain ⟨i, hi⟩ := exists_credits h
  refine ⟨i, hi, ?_, ?_⟩
  · rw [inputOf_accumulate, if_pos hi]
  · intro j hj
    rw [inputOf_accumulate, if_neg fun hj' => hj (hj'.unique hi)]

/-- A packet that is not for the round, or not from a player, changes nothing. -/
theorem onInputReady_ignored {g : Globals F} {id : I32} {packet : Packet F} (res : Int)
    (h : ¬ (packet.sync = g.ssync ∧ packet.type = CpongPacket.input.code ∧ IsPlayer g id)) :
    (onInputReady g id res packet).2 = g := by
  by_cases hplayer : IsPlayer g id
  · unfold onInputReady
    split_ifs with hres hsync htype
    · rfl
    · rfl
    · rfl
    · exact absurd ⟨not_not.mp hsync, not_not.mp htype, hplayer⟩ h
  · exact onInputReady_stranger (fun h0 => hplayer ⟨0, h0⟩) (fun h1 => hplayer ⟨1, h1⟩) res packet

variable [Field F]

/-- `on_input_ready` with its call of `recv_packet`; `packet` is what its local variable holds
before. -/
def onInputReadyRecv (host : Host F) (block : PacketBlock) (packet : Packet F) (g : Globals F)
    (id : I32) (conn : Conn) : Guarded ((Bool × Globals F) × Conn) := do
  let r ← recvPacket host block packet conn
  return (onInputReady g id r.res r.result, r.conn)

variable (host : Host F) {g : Globals F} {id : I32} {conn : Conn}

def CreditsGenuine (g : Globals F) (id : I32) (conn : Conn) : Prop :=
  ∀ block packet, EndsWith conn (onInputReadyRecv host block packet g id conn) fun r =>
    Credited g id conn r.1.2

omit [Field F] in
theorem Credited.unchanged (h : ¬ Genuine g id conn) : Credited g id conn g :=
  ⟨rfl, rfl, fun hgenuine => absurd hgenuine h, fun _ _ => rfl⟩

/-- A genuine frame is added to an accumulator, whatever is in the uninitialised memory. -/
theorem onInputReady_genuine (hgenuine : Genuine g id conn) (block : PacketBlock)
    (packet : Packet F) :
    (onInputReady g id (frameLength conn) (decoded host packet (frameBuf block conn))).2 =
      onInputReadyAccumulate g id (frameInput conn) := by
  have h := hgenuine.frameArrives
  have hres : (frameLength conn : Int) ≠ 0 := by
    unfold frameLength packetHeaderSize
    omega
  have hpayload := hgenuine.payload
  have hinput : wordAt (frameBuf block conn) 6 = frameInput conn := by
    unfold wordAt frameInput wordAt
    rw [h.part block (by unfold frameLength packetHeaderSize; omega)]
  rw [onInputReady_credits hres ((h.decoded_sync host block packet).trans hgenuine.sync)
    ((h.decoded_type host block packet).trans hgenuine.type),
    h.decoded_input host hgenuine.type, hinput]

/-- What a frame with a payload that is received makes `on_input_ready` do. -/
theorem credited_of_frame (h : FrameArrives conn) (hgood : SoundReceipt g id conn)
    (block : PacketBlock) (packet : Packet F) :
    Credited g id conn
      (onInputReady g id (frameLength conn) (decoded host packet (frameBuf block conn))).2 := by
  have htype := h.decoded_type host block packet
  have hsync := h.decoded_sync host block packet
  by_cases haccepted : frameSync conn = g.ssync ∧ frameType conn = CpongPacket.input.code ∧
      IsPlayer g id
  swap
  · rw [onInputReady_ignored _ (by rwa [hsync, htype])]
    exact .unchanged fun hgenuine => haccepted ⟨hgenuine.sync, hgenuine.type, hgenuine.player⟩
  obtain ⟨hs, ht, hplayer⟩ := haccepted
  have hpayload : 4 ≤ sizeT (announcedSize conn.stream) :=
    (hgood.whole hplayer h.frameArrival_eq ht hs).resolve_left h.nonempty.ne'
  have hgenuine : Genuine g id conn := ⟨h.frameArrival_eq, ht, hs, hpayload, hplayer⟩
  rw [onInputReady_genuine host hgenuine]
  obtain ⟨i, hi, hadd, hrest⟩ := accumulate_player hplayer (frameInput conn)
  have hsum := toInt_add_of_inInt32 (hgood.fits hgenuine i hi)
  rw [← hadd] at hsum
  exact ⟨onInputReadyAccumulate_state .., onInputReadyAccumulate_ssync ..,
    fun _ => ⟨i, hi.1, hsum, hrest⟩, fun hnot => absurd hgenuine hnot⟩

theorem onInputReadyRecv_of_recv {host : Host F} {block : PacketBlock} {packet : Packet F}
    {r : RecvPacket F} (h : recvPacket host block packet conn = .ok r) :
    onInputReadyRecv host block packet g id conn =
      .ok (onInputReady g id r.res r.result, r.conn) := by
  rw [onInputReadyRecv, h]
  rfl

/-- The words of a short frame come from the uninitialised buffer. -/
theorem exists_block_input_ne_zero (h : FrameArrives conn)
    (hshort : sizeT (announcedSize conn.stream) < 4) :
    ∃ block, wordAt (frameBuf block conn) 6 ≠ 0 := by
  have hcut : frameLength conn < 6 + (4 * 0 + 4) := by
    unfold frameLength packetHeaderSize
    omega
  refine ⟨uniformBlock 255, fun hzero => ?_⟩
  have hlast := h.lastWord hcut (by decide) 255
  rw [hzero] at hlast
  exact absurd hlast (by decide)

/-- A packet that passes the checks of the round adds nothing unless it is genuine. -/
theorem CreditsGenuine.inputAccMs_eq_zero {host : Host F} (h : CreditsGenuine host g id conn)
    (hplayer : IsPlayer g id) (hnot : ¬ Genuine g id conn) (hreturns : frameArrival conn ≠ .blocked)
    {block : PacketBlock} {packet : Packet F} {r : RecvPacket F}
    (hr : recvPacket host block packet conn = .ok r) (hres : r.res ≠ 0)
    (hsync : r.result.sync = g.ssync)
    (htype : r.result.type = CpongPacket.input.code) : r.result.data.inputAccMs = 0 := by
  have hcredited := (endsWith_iff_of_ok (onInputReadyRecv_of_recv hr) hreturns).mp (h block packet)
  have hsame := hcredited.other hnot
  obtain ⟨i, -, hadd, -⟩ := accumulate_player hplayer r.result.data.inputAccMs
  have hi := hsame i
  rw [onInputReady_credits hres hsync htype, hadd] at hi
  exact BitVec.add_right_eq_self.mp hi

theorem CreditsGenuine.room {host : Host F} (h : CreditsGenuine host g id conn) :
    AnnouncesRoom conn := by
  intro hheader
  obtain ⟨buf, conn', hbuf, hrun⟩ := recvPacket_header host (uniformBlock 0) Packet.zero hheader
  apply (recvPayload_inBounds_iff host hbuf Packet.zero conn').mp
  rw [← hrun]
  intro hbad
  have hends := h (uniformBlock 0) Packet.zero
  have hcall : onInputReadyRecv host (uniformBlock 0) Packet.zero g id conn =
      .error .outOfBounds := by
    rw [onInputReadyRecv, hbad]
    rfl
  rw [EndsWith, hcall] at hends
  split at hends
  · cases hends
  · obtain ⟨r, hr, -⟩ := hends
    cases hr

/-- If `recv` fails, the packet that is left over from before is taken for the input. -/
theorem CreditsGenuine.noError {host : Host F} (h : CreditsGenuine host g id conn)
    (hplayer : IsPlayer g id) : frameArrival conn ≠ .error := by
  intro herror
  have hnot : ¬ Genuine g id conn := by
    intro hgenuine
    cases herror.symm.trans hgenuine.arrives
  have hrecv := recvPacket_outcome host (uniformBlock 0)
    { (Packet.zero : Packet F) with
      type := CpongPacket.input.code
      sync := g.ssync
      data := (Packet.zero : Packet F).data.setInputAccMs 1 } h.room
  rw [herror] at hrecv
  obtain ⟨conn', hr⟩ := hrecv
  have hone : (1 : I32) = 0 :=
    h.inputAccMs_eq_zero hplayer hnot (by rw [herror]; decide) hr (fun h => nomatch h) rfl rfl
  exact absurd hone (by decide)

/-- A frame that ends within the input is filled up with bytes that were not received. -/
theorem CreditsGenuine.whole {host : Host F} (h : CreditsGenuine host g id conn)
    (hplayer : IsPlayer g id) (harr : frameArrival conn = .complete)
    (htype : frameType conn = CpongPacket.input.code) (hsync : frameSync conn = g.ssync) :
    sizeT (announcedSize conn.stream) = 0 ∨ 4 ≤ sizeT (announcedSize conn.stream) := by
  by_contra hshort
  obtain ⟨hne, hlt⟩ := not_or.mp hshort
  have harrives : FrameArrives conn := .of_frameArrival harr hne
  obtain ⟨block, hword⟩ := exists_block_input_ne_zero harrives (not_le.mp hlt)
  have hr := recvPacket_arrived host harrives (h.room.frameLength_le harrives.header) block
    Packet.zero
  have hres : (frameLength conn : Int) ≠ 0 := by
    unfold frameLength packetHeaderSize
    omega
  have hzero := h.inputAccMs_eq_zero hplayer (fun hgenuine => hlt hgenuine.payload)
    (by rw [harr]; decide) hr hres
    ((harrives.decoded_sync host block _).trans hsync)
    ((harrives.decoded_type host block _).trans htype)
  rw [harrives.decoded_input host htype] at hzero
  exact hword hzero

/-- A sum that an accumulator holds as a number has not wrapped. -/
theorem CreditsGenuine.fits {host : Host F} (h : CreditsGenuine host g id conn)
    (hgenuine : Genuine g id conn) (i : Fin 2) (hi : Credits g.state.playerIds id i) :
    InInt32 ((inputOf g i).toInt + (frameInput conn).toInt) := by
  have harrives := hgenuine.frameArrives
  have hr := recvPacket_arrived host harrives (h.room.frameLength_le harrives.header)
    (uniformBlock 0) Packet.zero
  have hcredited := (endsWith_iff_of_ok (onInputReadyRecv_of_recv hr)
    (by rw [hgenuine.arrives]; decide)).mp (h (uniformBlock 0) Packet.zero)
  obtain ⟨j, -, hadd, hrest⟩ := hcredited.genuine hgenuine
  dsimp only at hadd hrest
  rw [onInputReady_genuine host hgenuine] at hadd hrest
  by_cases hij : i = j
  · subst hij
    rw [← hadd]
    exact inInt32_toInt _
  · -- both players have this id, and the other accumulator holds the sum: it brings nothing
    have hsame := hrest i hij
    rw [inputOf_accumulate, if_pos hi] at hsame
    rw [BitVec.add_right_eq_self.mp hsame, BitVec.toInt_zero, add_zero]
    exact inInt32_toInt _

theorem SoundReceipt.creditsGenuine (hgood : SoundReceipt g id conn) :
    CreditsGenuine host g id conn := by
  intro block packet
  have hrecv := recvPacket_outcome host block packet hgood.room
  cases harr : frameArrival conn with
  | complete =>
    have hreturns : frameArrival conn ≠ .blocked := by
      rw [harr]
      decide
    rw [harr, FrameRecvd] at hrecv
    split at hrecv
    · rename_i hzero
      refine (endsWith_iff_of_ok (onInputReadyRecv_of_recv hrecv) hreturns).mpr
        (.unchanged fun hgenuine => ?_)
      have hpayload := hgenuine.payload
      omega
    · rename_i hne
      exact (endsWith_iff_of_ok (onInputReadyRecv_of_recv hrecv) hreturns).mpr
        (credited_of_frame host (.of_frameArrival harr hne) hgood block packet)
  | eof =>
    rw [harr] at hrecv
    obtain ⟨conn', hr⟩ := hrecv
    apply (endsWith_iff_of_ok (onInputReadyRecv_of_recv hr) (by rw [harr]; decide)).mpr
    exact .unchanged fun hgenuine => absurd hgenuine.arrives (by rw [harr]; decide)
  | error =>
    rw [harr] at hrecv
    obtain ⟨conn', hr⟩ := hrecv
    apply (endsWith_iff_of_ok (onInputReadyRecv_of_recv hr) (by rw [harr]; decide)).mpr
    rw [onInputReady_ignored _ fun h => hgood.noError h.2.2 harr]
    exact .unchanged fun hgenuine => absurd hgenuine.arrives (by rw [harr]; decide)
  | blocked =>
    rw [harr, FrameRecvd] at hrecv
    rw [EndsWith, if_pos harr, onInputReadyRecv, hrecv]
    rfl

/-- `on_input_ready` credits nothing but genuine input, whatever is in its uninitialised memory,
exactly when the receipt is sound. -/
theorem genuine_input_iff (g : Globals F) (id : I32) (conn : Conn) :
    CreditsGenuine host g id conn ↔ SoundReceipt g id conn := by
  constructor
  · intro hcredits
    exact ⟨hcredits.room, hcredits.noError, hcredits.whole, hcredits.fits⟩
  · intro hgood
    exact hgood.creditsGenuine host

/-- The connection of a client fails when nothing has been read. -/
def failingConn : Conn := ⟨[], [.error]⟩

/-- The packet that a former call has left on the stack is credited. -/
theorem genuine_input_failingConn :
    (∃ r, onInputReadyRecv (⟨.little, fun _ => 0⟩ : Host ℚ) (uniformBlock 0) (inputPacket 0 500)
        twoPlayers 1 failingConn = .ok r ∧ r.1.2.input1 = 500) ∧
      frameArrival failingConn = .error ∧ twoPlayers.input1 = 0 ∧
      ¬ CreditsGenuine (⟨.little, fun _ => 0⟩ : Host ℚ) twoPlayers 1 failingConn := by
  have herror : frameArrival failingConn = .error := by rfl
  have hroom : AnnouncesRoom failingConn := by
    intro hheader
    exact absurd hheader (by unfold HeaderArrives; decide)
  have hrecv := recvPacket_outcome (⟨.little, fun _ => 0⟩ : Host ℚ) (uniformBlock 0)
    (inputPacket 0 500) hroom
  rw [herror] at hrecv
  obtain ⟨conn', hr⟩ := hrecv
  refine ⟨⟨_, onInputReadyRecv_of_recv hr, rfl⟩, herror, rfl, ?_⟩
  intro hcredits
  exact hcredits.noError ⟨0, rfl⟩ herror

end

end CPong
