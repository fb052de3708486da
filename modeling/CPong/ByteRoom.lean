import CPong.RoundAgreement

/-!
# A room on streams of bytes

The match of `CPong.Room` with connections that carry bytes. `sendall` hands the bytes of a packet
over piece by piece, and `recv_packet` comes back once it has a whole frame.
-/

namespace CPong

set_option autoImplicit false

open Lib
open Lib.Words
open Lib.Memory

/-- One direction of a connection: what `sendall` has still to hand over, and what the receiver
has not read yet. -/
structure Link where
  pending : List Byte
  wire : List Byte
deriving DecidableEq, Repr

/-- The call of `sendall` with `bytes`. -/
def Link.put (link : Link) (bytes : List Byte) : Link := { link with pending := bytes }

/-- One `send` takes `more + 1` bytes, or all that is left if that is less. -/
def Link.send (link : Link) (more : Nat) : Link :=
  ⟨link.pending.drop (more + 1), link.wire ++ link.pending.take (more + 1)⟩

def Link.bytes (link : Link) : List Byte := link.wire ++ link.pending

structure ByteRoom (F : Type) where
  server : Globals F
  clients : Fin 2 → Option (ClientData F)
  down : Fin 2 → Link
  up : Fin 2 → Link

inductive ByteStep (F : Type) where
  | tick (tick : Tick) (blocks : Fin 2 → PacketBlock)
  | sendDown (i : Fin 2) (more : Nat)
  | sendUp (i : Fin 2) (more : Nat)
  /-- `on_input_ready` for client `i`; its local packet holds `garbage` before -/
  | input (i : Fin 2) (block : PacketBlock) (garbage : Packet F) (script : List RecvOutcome)
  | receive (i : Fin 2) (block : PacketBlock) (script : List RecvOutcome)
  | frame (i : Fin 2) (up down : Bool) (deltaTime : I32) (fuel : Nat)
  | network (i : Fin 2) (block : PacketBlock)

instance (script : List RecvOutcome) : Decidable (Delivers script) :=
  inferInstanceAs (Decidable (∀ o ∈ script, o.isData ∨ o = .eintr))

section
variable {F : Type} [Field F] [LinearOrder F] [FloorRing F]

/-- What `server_send_packet` and `client_send` give to `sendall`. -/
def serialized (host : Host F) (block : PacketBlock) (packet : Packet F) : List Byte :=
  match packetSerialize host (binarrNew block) packet with
  | .ok (true, barr) => barr.buf.take barr.size
  | _ => []

/-- The call of `recv_packet` that comes back, with the bytes it leaves; `none` where it waits. -/
def recvFrame (host : Host F) (block : PacketBlock) (r : Packet F) (link : Link)
    (script : List RecvOutcome) : Option (Int × Packet F × Link) :=
  if Delivers script then
    match recvPacket host block r ⟨link.wire, script⟩ with
    | .ok got => some (got.res, got.result, { link with wire := got.conn.stream })
    | .error _ => none
  else none

/-- `client_main` with its first packet, `server_state_receive` with all others. -/
def clientHandle (client : Option (ClientData F)) (res : Int) (packet : Packet F) :
    Option (ClientData F) :=
  match client with
  | none => clientMain packet Packet.zero.data.state
  | some args => (serverStateReceive args res packet).2

variable [Libm F] (m : Match F)

/-- A thread sends its next packet only when `sendall` has come back, and the server sends to
the first client first. -/
def byteStep (b : ByteRoom F) : ByteStep F → Option (ByteRoom F)
  | .tick tick blocks =>
    if (b.down 0).pending = [] ∧ (b.down 1).pending = [] then
      (sendState tick b.server).map fun (packet, g) =>
        { b with
          server := g
          down := fun i => (b.down i).put (serialized m.server (blocks i) packet) }
    else none
  | .sendDown i more =>
    if (b.down i).pending ≠ [] ∧ (i = 1 → (b.down 0).pending = []) then
      some { b with down := Function.update b.down i ((b.down i).send more) }
    else none
  | .sendUp i more =>
    if (b.up i).pending ≠ [] then
      some { b with up := Function.update b.up i ((b.up i).send more) }
    else none
  | .input i block garbage script =>
    (recvFrame m.server block garbage (b.up i) script).map fun (res, packet, link) =>
      { b with
        server := (onInputReady b.server (m.room.clients i) res packet).2
        up := Function.update b.up i link }
  | .receive i block script => do
    let (res, packet, link) ← recvFrame (m.client i) block Packet.zero (b.down i) script
    let args ← clientHandle (b.clients i) res packet
    return { b with
      clients := Function.update b.clients i (some args)
      down := Function.update b.down i link }
  | .frame i up down deltaTime fuel => do
    let args ← b.clients i
    let args ← update fuel args up down deltaTime
    return { b with clients := Function.update b.clients i (some args) }
  | .network i block =>
    if (b.up i).pending = [] then do
      let args ← b.clients i
      let (packet, args) := networkUpdate args
      return { b with
        clients := Function.update b.clients i (some args)
        up := Function.update b.up i ((b.up i).put (serialized (m.client i) block packet)) }
    else none

def byteStart (rands : Rands) (g : Globals F) (blocks : Fin 2 → PacketBlock) : ByteRoom F :=
  let g := (startPongGame m.room rands g).2
  { server := g
    clients := fun _ => none
    down := fun i => ⟨serialized m.server (blocks i) (![initPacket g 0, initPacket g 1] i), []⟩
    up := fun _ => ⟨[], []⟩ }

/-- The step of the room that a step on the bytes is. -/
def ByteStep.packetStep : ByteStep F → Option (RoomStep F)
  | .tick t _ => some (.tick t)
  | .sendDown .. => none
  | .sendUp .. => none
  | .input i _ garbage _ => some (.input i garbage)
  | .receive i _ _ => some (.receive i)
  | .frame i up down deltaTime fuel => some (.frame i up down deltaTime fuel)
  | .network i _ => some (.network i)

section
variable {sender receiver : Host F} {p : Packet F} {k : CpongPacket} {link link' : Link}
  {block : PacketBlock} {r packet : Packet F} {script : List RecvOutcome} {res : Int}
  {rest : List Byte}

omit [Libm F] in
theorem serialized_eq (host : Host F) (htype : p.type = k.code) (block : PacketBlock) :
    serialized host block p = packetFrame host p := by
  have hk : CpongPacket.ofCode p.type = some k := htype ▸ CpongPacket.ofCode_code k
  rw [serialized, packetSerialize_new host hk (block.packetRoom k), packetFrame_of_type host htype]
  exact List.take_left

theorem Link.bytes_send (link : Link) (more : Nat) : (link.send more).bytes = link.bytes := by
  unfold Link.bytes Link.send
  rw [List.append_assoc, List.take_append_drop]

theorem Link.bytes_put (hpending : link.pending = []) (bytes : List Byte) :
    (link.put bytes).bytes = link.bytes ++ bytes := by
  unfold Link.bytes Link.put
  rw [hpending, List.append_nil]

omit [LinearOrder F] [FloorRing F] [Libm F] in
theorem recvFrame_eq_some (h : recvFrame receiver block r link script = some (res, packet, link')) :
    Delivers script ∧ ∃ got, recvPacket receiver block r ⟨link.wire, script⟩ = .ok got ∧
      got.res = res ∧ got.result = packet ∧ link' = { link with wire := got.conn.stream } := by
  unfold recvFrame at h
  split at h
  · rename_i hscript
    split at h
    · rename_i got hgot
      cases h
      exact ⟨hscript, got, hgot, rfl, rfl, rfl⟩
    · cases h
  · cases h

omit [LinearOrder F] [FloorRing F] [Libm F] in
/-- Nothing has been sent, so there is nothing to read. -/
theorem recvFrame_empty (h : link.bytes = []) (receiver : Host F) (block : PacketBlock)
    (r : Packet F) (script : List RecvOutcome) :
    recvFrame receiver block r link script = none := by
  have hwire : link.wire = [] := (List.append_eq_nil_iff.mp h).1
  by_contra hsome
  obtain ⟨⟨res, packet, link'⟩, hrecv⟩ := Option.ne_none_iff_exists'.mp hsome
  obtain ⟨hscript, got, hgot, -⟩ := recvFrame_eq_some hrecv
  have hshort : recvPacket receiver block r ⟨link.wire, script⟩ = .error .blocked := by
    simp only [recvPacket, binarrNew, hwire, recvall_short hscript block.headerRoom
      (by decide : ([] : List Byte).length < packetHeaderSize)]
    rfl
  rw [hshort] at hgot
  cases hgot

omit [Libm F] in
theorem wire_long (htype : p.type = k.code) (hbytes : link.bytes = packetFrame sender p ++ rest)
    (hlong : (packetFrame sender p).length ≤ link.wire.length) :
    ∃ wire, link.wire = frame sender k p ++ wire ∧ wire ++ link.pending = rest := by
  rw [packetFrame_of_type sender htype] at hbytes hlong
  obtain ⟨wire, hwire⟩ : frame sender k p <+: link.wire :=
    List.prefix_of_prefix_length_le ⟨rest, hbytes.symm⟩ ⟨link.pending, rfl⟩ hlong
  refine ⟨wire, hwire.symm, ?_⟩
  rw [Link.bytes, ← hwire, List.append_assoc] at hbytes
  exact List.append_cancel_left hbytes

omit [Libm F] in
theorem recvFrame_short (htype : p.type = k.code)
    (hbytes : link.bytes = packetFrame sender p ++ rest)
    (hshort : link.wire.length < (packetFrame sender p).length) :
    recvFrame receiver block r link script = none := by
  by_contra hsome
  obtain ⟨⟨res, packet, link'⟩, hrecv⟩ := Option.ne_none_iff_exists'.mp hsome
  obtain ⟨hscript, got, hgot, -⟩ := recvFrame_eq_some hrecv
  rw [packetFrame_of_type sender htype] at hbytes hshort
  obtain ⟨left, hleft⟩ : link.wire <+: frame sender k p :=
    List.prefix_of_prefix_length_le ⟨link.pending, rfl⟩ ⟨rest, hbytes.symm⟩ hshort.le
  rw [recvPacket_short sender receiver k p block r hscript hleft hshort] at hgot
  cases hgot

omit [Libm F] in
/-- What a call of `recv_packet` brings is the next packet, all of it. -/
theorem recvFrame_spec (htype : p.type = k.code)
    (hbytes : link.bytes = packetFrame sender p ++ rest)
    (h : recvFrame receiver block r link script = some (res, packet, link')) :
    res = (packetFrame sender p).length ∧ packet = packetReceived sender receiver p r ∧
      link'.bytes = rest := by
  by_cases hshort : link.wire.length < (packetFrame sender p).length
  · rw [recvFrame_short htype hbytes hshort] at h
    cases h
  obtain ⟨hscript, got, hgot, hres, hpacket, rfl⟩ := recvFrame_eq_some h
  obtain ⟨wire, hwire, hrest⟩ := wire_long htype hbytes (not_lt.mp hshort)
  have hk : CpongPacket.ofCode p.type = some k := htype ▸ CpongPacket.ofCode_code k
  rw [packetFrame_of_type sender htype, packetReceived_of_type sender receiver htype]
  rcases recvPacket_delivers sender receiver hk block r wire hscript with
    ⟨script', hrun, -, -⟩ | ⟨hrun, -⟩
  · rw [hwire, hrun] at hgot
    cases hgot
    exact ⟨hres.symm, hpacket.symm, hrest⟩
  · rw [hwire, hrun] at hgot
    cases hgot

omit [Libm F] in
/-- A call of `recv_packet` comes back as soon as the whole frame is there. -/
theorem recvFrame_exists (receiver : Host F) (block : PacketBlock) (r : Packet F)
    (htype : p.type = k.code) (hbytes : link.bytes = packetFrame sender p ++ rest)
    (hlong : (packetFrame sender p).length ≤ link.wire.length) :
    ∃ script got, recvFrame receiver block r link script = some got := by
  obtain ⟨wire, hwire, -⟩ := wire_long htype hbytes hlong
  have hk : CpongPacket.ofCode p.type = some k := htype ▸ CpongPacket.ofCode_code k
  have hscript : Delivers (List.replicate (frame sender k p).length (.data 0)) := by
    intro o ho
    exact Or.inl (List.eq_of_mem_replicate ho ▸ rfl)
  have hcount : dataCount (List.replicate (frame sender k p).length (.data 0)) =
      (frame sender k p).length := by
    rw [dataCount, List.countP_replicate]
    rfl
  rcases recvPacket_delivers sender receiver hk block r wire hscript with
    ⟨script', hrun, -, -⟩ | ⟨-, hfew⟩
  · have hgot : recvFrame receiver block r link
        (List.replicate (frame sender k p).length (.data 0)) =
        some (((frame sender k p).length : Int),
          packetImage (receivedFloat sender) sender.endian receiver.endian k p r,
          { link with wire := wire }) := by
      rw [recvFrame, if_pos hscript, hwire, hrun]
    exact ⟨_, _, hgot⟩
  · rw [hcount] at hfew
    exact absurd hfew (lt_irrefl _)

end

/-- The room `b` on bytes is the room `s` on packets. -/
structure ByteView (m : Match F) (b : ByteRoom F) (s : RoomState F) : Prop where
  server : b.server = s.server
  clients : b.clients = s.clients
  down : ∀ i, (b.down i).bytes = (s.sent.drop (s.processed i)).flatMap fun message =>
    packetFrame m.server (message.packets i)
  up : ∀ i, (b.up i).bytes = (s.up i).flatMap (packetFrame (m.client i))
  sentKnown : ∀ message ∈ s.sent, ∀ i, ∃ k : CpongPacket, (message.packets i).type = k.code
  upKnown : ∀ i, ∀ p ∈ s.up i, ∃ k : CpongPacket, p.type = k.code
  processed : ∀ i, s.processed i ≤ s.sent.length

section
variable {m : Match F} {b b' : ByteRoom F} {s : RoomState F}

theorem sendState_known {tick : Tick} {g g' : Globals F} {packet : Packet F}
    (h : sendState tick g = some (packet, g')) : ∃ k : CpongPacket, packet.type = k.code := by
  obtain ⟨scoredIndex, ball, -, ⟨-, rfl, rfl⟩ | ⟨i, -, rfl, rfl⟩⟩ := sendState_cases h
  · exact ⟨.state, rfl⟩
  · exact ⟨.init, rfl⟩

theorem ByteView.start (rands : Rands) (g : Globals F) (blocks : Fin 2 → PacketBlock) :
    ByteView m (byteStart m rands g blocks) (roomStart m rands g) := by
  have hinit : ∀ i, (![initPacket (startPongGame m.room rands g).2 0,
      initPacket (startPongGame m.room rands g).2 1] i).type = CpongPacket.init.code :=
    Fin.forall_fin_two.mpr ⟨rfl, rfl⟩
  refine ⟨rfl, rfl, fun i => ?_, fun _ => rfl, fun message hmessage i => ?_, fun i p hp => ?_,
    fun _ => Nat.zero_le _⟩
  · simp only [byteStart, roomStart, Link.bytes, serialized_eq m.server (hinit i), List.drop_zero,
      List.flatMap_cons, List.flatMap_nil, List.nil_append, List.append_nil]
  · rw [roomStart, List.mem_singleton] at hmessage
    subst hmessage
    exact ⟨.init, hinit i⟩
  · cases hp

theorem ByteView.tick {tick : Tick} {blocks : Fin 2 → PacketBlock} (hv : ByteView m b s)
    (h : byteStep m b (.tick tick blocks) = some b') :
    ∃ s', roomStep m s (.tick tick) = some s' ∧ ByteView m b' s' := by
  simp only [byteStep, Option.ite_none_right_eq_some, Option.map_eq_some_iff] at h
  obtain ⟨hpending, ⟨packet, g⟩, htick, rfl⟩ := h
  have hidle : ∀ i, (b.down i).pending = [] := Fin.forall_fin_two.mpr hpending
  obtain ⟨k, hk⟩ := sendState_known htick
  rw [hv.server] at htick
  refine ⟨{ s with server := g, sent := s.sent ++ [⟨fun _ => packet, g.ssync, g.state.score⟩] },
    by rw [roomStep, htick]; rfl, rfl, hv.clients, fun i => ?_, hv.up, ?_, hv.upKnown, fun i => ?_⟩
  · change ((b.down i).put _).bytes = _
    rw [Link.bytes_put (hidle i), hv.down i, serialized_eq m.server hk,
      List.drop_append_of_le_length (hv.processed i), List.flatMap_append]
    simp only [List.flatMap_cons, List.flatMap_nil, List.append_nil]
  · intro message hmessage i
    rcases List.mem_append.mp hmessage with hold | hnew
    · exact hv.sentKnown message hold i
    · rw [List.mem_singleton] at hnew
      subst hnew
      exact ⟨k, hk⟩
  · rw [List.length_append]
    exact (hv.processed i).trans (Nat.le_add_right _ _)

/-- Bytes that are handed over stay in their order. -/
theorem ByteView.sendDown {i : Fin 2} {more : Nat} (hv : ByteView m b s)
    (h : byteStep m b (.sendDown i more) = some b') : ByteView m b' s := by
  simp only [byteStep, Option.ite_none_right_eq_some, Option.some.injEq] at h
  obtain ⟨-, rfl⟩ := h
  refine ⟨hv.server, hv.clients, fun j => ?_, hv.up, hv.sentKnown, hv.upKnown, hv.processed⟩
  rw [← hv.down j]
  by_cases hj : j = i
  · subst hj
    simp only [Function.update_self, Link.bytes_send]
  · simp only [Function.update_of_ne hj]

theorem ByteView.sendUp {i : Fin 2} {more : Nat} (hv : ByteView m b s)
    (h : byteStep m b (.sendUp i more) = some b') : ByteView m b' s := by
  simp only [byteStep, Option.ite_none_right_eq_some, Option.some.injEq] at h
  obtain ⟨-, rfl⟩ := h
  refine ⟨hv.server, hv.clients, hv.down, fun j => ?_, hv.sentKnown, hv.upKnown, hv.processed⟩
  rw [← hv.up j]
  by_cases hj : j = i
  · subst hj
    simp only [Function.update_self, Link.bytes_send]
  · simp only [Function.update_of_ne hj]

theorem ByteView.input {i : Fin 2} {block : PacketBlock} {garbage : Packet F}
    {script : List RecvOutcome} (hv : ByteView m b s)
    (h : byteStep m b (.input i block garbage script) = some b') :
    ∃ s', roomStep m s (.input i garbage) = some s' ∧ ByteView m b' s' := by
  simp only [byteStep, Option.map_eq_some_iff] at h
  obtain ⟨⟨res, packet, link⟩, hrecv, rfl⟩ := h
  have hbytes := hv.up i
  cases hup : s.up i with
  | nil =>
    rw [hup] at hbytes
    rw [recvFrame_empty hbytes] at hrecv
    cases hrecv
  | cons p rest =>
    rw [hup, List.flatMap_cons] at hbytes
    obtain ⟨k, hk⟩ := hv.upKnown i p (hup ▸ List.mem_cons_self)
    obtain ⟨rfl, rfl, hrest⟩ := recvFrame_spec hk hbytes hrecv
    refine ⟨{ s with
      server := serverReceive m i p garbage s.server
      up := Function.update s.up i rest }, by simp only [roomStep, hup], ?_, hv.clients, hv.down,
      fun j => ?_, hv.sentKnown, fun j q hq => ?_, hv.processed⟩
    · rw [hv.server]
      rfl
    · by_cases hj : j = i
      · subst hj
        simp only [Function.update_self]
        exact hrest
      · simp only [Function.update_of_ne hj]
        exact hv.up j
    · by_cases hj : j = i
      · subst hj
        simp only [Function.update_self] at hq
        exact hv.upKnown j q (hup ▸ List.mem_cons_of_mem _ hq)
      · simp only [Function.update_of_ne hj] at hq
        exact hv.upKnown j q hq

omit [Libm F] in
theorem ByteView.bytes_down {i : Fin 2} {message : Message F} (hv : ByteView m b s)
    (hmessage : s.sent[s.processed i]? = some message) :
    (b.down i).bytes = packetFrame m.server (message.packets i) ++
      (s.sent.drop (s.processed i + 1)).flatMap fun message =>
        packetFrame m.server (message.packets i) := by
  obtain ⟨hlt, rfl⟩ := List.getElem?_eq_some_iff.mp hmessage
  rw [hv.down i, ← List.getElem_cons_drop hlt, List.flatMap_cons]

theorem ByteView.receive {i : Fin 2} {block : PacketBlock} {script : List RecvOutcome}
    (hv : ByteView m b s) (h : byteStep m b (.receive i block script) = some b') :
    ∃ s', roomStep m s (.receive i) = some s' ∧ ByteView m b' s' := by
  obtain ⟨⟨res, packet, link⟩, hrecv, h⟩ := Option.bind_eq_some_iff.mp h
  obtain ⟨args, hargs, hres⟩ := Option.bind_eq_some_iff.mp h
  cases hres
  rcases (hv.processed i).eq_or_lt with hall | hlt
  · have hbytes := hv.down i
    rw [hall, List.drop_length] at hbytes
    rw [recvFrame_empty hbytes] at hrecv
    cases hrecv
  · have hget : s.sent[s.processed i]? = some s.sent[s.processed i] :=
      List.getElem?_eq_getElem hlt
    generalize s.sent[s.processed i] = message at hget
    have hbytes := hv.bytes_down hget
    obtain ⟨k, hk⟩ := hv.sentKnown message (List.mem_of_getElem? hget) i
    obtain ⟨rfl, rfl, hrest⟩ := recvFrame_spec hk hbytes hrecv
    have hclient : clientReceive m i (message.packets i) (s.clients i) = some args := by
      rw [← hv.clients, ← hargs]
      rfl
    refine ⟨{ s with
      clients := Function.update s.clients i (some args)
      processed := Function.update s.processed i (s.processed i + 1) }, ?_, hv.server, ?_,
      fun j => ?_, hv.up, hv.sentKnown, hv.upKnown, fun j => ?_⟩
    · exact Option.bind_eq_some_iff.mpr
        ⟨message, hget, Option.bind_eq_some_iff.mpr ⟨args, hclient, rfl⟩⟩
    · rw [hv.clients]
    · by_cases hj : j = i
      · subst hj
        simp only [Function.update_self]
        exact hrest
      · simp only [Function.update_of_ne hj]
        exact hv.down j
    · by_cases hj : j = i
      · subst hj
        simp only [Function.update_self]
        exact hlt
      · simp only [Function.update_of_ne hj]
        exact hv.processed j

theorem ByteView.frame {i : Fin 2} {up down : Bool} {deltaTime : I32} {fuel : Nat}
    (hv : ByteView m b s) (h : byteStep m b (.frame i up down deltaTime fuel) = some b') :
    ∃ s', roomStep m s (.frame i up down deltaTime fuel) = some s' ∧ ByteView m b' s' := by
  obtain ⟨args, hargs, h⟩ := Option.bind_eq_some_iff.mp h
  obtain ⟨args', hupdate, hres⟩ := Option.bind_eq_some_iff.mp h
  cases hres
  rw [hv.clients] at hargs
  refine ⟨{ s with clients := Function.update s.clients i (some args') }, ?_, hv.server, ?_,
    hv.down, hv.up, hv.sentKnown, hv.upKnown, hv.processed⟩
  · exact Option.bind_eq_some_iff.mpr
      ⟨args, hargs, Option.bind_eq_some_iff.mpr ⟨args', hupdate, rfl⟩⟩
  · rw [hv.clients]

theorem ByteView.network {i : Fin 2} {block : PacketBlock} (hv : ByteView m b s)
    (h : byteStep m b (.network i block) = some b') :
    ∃ s', roomStep m s (.network i) = some s' ∧ ByteView m b' s' := by
  simp only [byteStep, Option.ite_none_right_eq_some] at h
  obtain ⟨hpending, h⟩ := h
  obtain ⟨args, hargs, hres⟩ := Option.bind_eq_some_iff.mp h
  cases hres
  rw [hv.clients] at hargs
  have hk : (networkUpdate args).1.type = CpongPacket.input.code := rfl
  refine ⟨{ s with
    clients := Function.update s.clients i (some (networkUpdate args).2)
    up := Function.update s.up i (s.up i ++ [(networkUpdate args).1]) }, ?_, hv.server, ?_,
    hv.down, fun j => ?_, hv.sentKnown, fun j q hq => ?_, hv.processed⟩
  · rw [roomStep, hargs]
    rfl
  · rw [hv.clients]
  · by_cases hj : j = i
    · subst hj
      simp only [Function.update_self]
      rw [Link.bytes_put hpending, hv.up j, serialized_eq (m.client j) hk, List.flatMap_append]
      simp only [List.flatMap_cons, List.flatMap_nil, List.append_nil]
    · simp only [Function.update_of_ne hj]
      exact hv.up j
  · by_cases hj : j = i
    · subst hj
      simp only [Function.update_self, List.mem_append, List.mem_singleton] at hq
      rcases hq with hold | rfl
      · exact hv.upKnown j q hold
      · exact ⟨.input, hk⟩
    · simp only [Function.update_of_ne hj] at hq
      exact hv.upKnown j q hq

theorem ByteView.seen {l : ByteStep F} {l' : RoomStep F} (hv : ByteView m b s)
    (h : byteStep m b l = some b') (hl : l.packetStep = some l') :
    ∃ s', roomStep m s l' = some s' ∧ ByteView m b' s' := by
  cases l with
  | sendDown i more => cases hl
  | sendUp i more => cases hl
  | tick tick blocks =>
    cases hl
    exact hv.tick h
  | input i block garbage script =>
    cases hl
    exact hv.input h
  | receive i block script =>
    cases hl
    exact hv.receive h
  | frame i up down deltaTime fuel =>
    cases hl
    exact hv.frame h
  | network i block =>
    cases hl
    exact hv.network h

theorem ByteView.unseen {l : ByteStep F} (hv : ByteView m b s) (h : byteStep m b l = some b')
    (hl : l.packetStep = none) : ByteView m b' s := by
  cases l with
  | sendDown i more => exact hv.sendDown h
  | sendUp i more => exact hv.sendUp h
  | _ => cases hl

omit [Libm F] in
/-- The client can handle whatever is next on its stream. -/
theorem clientHandle_next {ssync : I8} {i : Fin 2} {message : Message F}
    (hs : RoundInv m ssync s) (hmessage : s.sent[s.processed i]? = some message) :
    ∃ args, clientReceive m i (message.packets i) (s.clients i) = some args := by
  cases hclient : s.clients i with
  | some args => exact ⟨_, rfl⟩
  | none =>
    have hagrees := hs.clients i
    unfold ClientAgrees at hagrees
    cases hk : s.processed i with
    | zero =>
      obtain ⟨first, hfirst, hinit, -⟩ := hs.server.first
      rw [hk, hfirst] at hmessage
      cases hmessage
      obtain ⟨args, hargs, -⟩ := clientReceive_first m i (hinit i).1
      exact ⟨args, hargs⟩
    | succ k =>
      simp only [hk] at hagrees
      obtain ⟨args, -, hargs, -⟩ := hagrees
      rw [hargs] at hclient
      cases hclient

/-- A client can process its next message when all of its bytes have come, and not before. -/
theorem ByteView.receive_iff {ssync : I8} (hv : ByteView m b s) (hs : RoundInv m ssync s)
    (i : Fin 2) (block : PacketBlock) :
    (∃ script b', byteStep m b (.receive i block script) = some b') ↔
      ∃ message, s.sent[s.processed i]? = some message ∧
        (packetFrame m.server (message.packets i)).length ≤ (b.down i).wire.length := by
  constructor
  · rintro ⟨script, b', h⟩
    obtain ⟨s', hstep, -⟩ := hv.receive h
    obtain ⟨message, args, hmessage, -, -⟩ := roomStep_receive hstep
    refine ⟨message, hmessage, ?_⟩
    obtain ⟨k, hk⟩ := hv.sentKnown message (List.mem_of_getElem? hmessage) i
    obtain ⟨got, hrecv, -⟩ := Option.bind_eq_some_iff.mp h
    by_contra hshort
    rw [recvFrame_short hk (hv.bytes_down hmessage) (not_le.mp hshort)] at hrecv
    cases hrecv
  · rintro ⟨message, hmessage, hlong⟩
    obtain ⟨k, hk⟩ := hv.sentKnown message (List.mem_of_getElem? hmessage) i
    obtain ⟨script, ⟨res, packet, link⟩, hrecv⟩ :=
      recvFrame_exists (m.client i) block Packet.zero hk (hv.bytes_down hmessage) hlong
    obtain ⟨rfl, rfl, -⟩ := recvFrame_spec hk (hv.bytes_down hmessage) hrecv
    obtain ⟨args, hargs⟩ := clientHandle_next hs hmessage
    rw [← hv.clients] at hargs
    exact ⟨script, _, Option.bind_eq_some_iff.mpr
      ⟨_, hrecv, Option.bind_eq_some_iff.mpr ⟨args, hargs, rfl⟩⟩⟩

theorem ByteView.input_iff (hv : ByteView m b s) (i : Fin 2) (block : PacketBlock)
    (garbage : Packet F) :
    (∃ script b', byteStep m b (.input i block garbage script) = some b') ↔
      ∃ p rest, s.up i = p :: rest ∧
        (packetFrame (m.client i) p).length ≤ (b.up i).wire.length := by
  constructor
  · rintro ⟨script, b', h⟩
    obtain ⟨s', hstep, -⟩ := hv.input h
    obtain ⟨p, rest, hup, -⟩ := roomStep_input hstep
    refine ⟨p, rest, hup, ?_⟩
    have hbytes := hv.up i
    rw [hup, List.flatMap_cons] at hbytes
    obtain ⟨k, hk⟩ := hv.upKnown i p (hup ▸ List.mem_cons_self)
    obtain ⟨got, hrecv, -⟩ := Option.map_eq_some_iff.mp h
    by_contra hshort
    rw [recvFrame_short hk hbytes (not_le.mp hshort)] at hrecv
    cases hrecv
  · rintro ⟨p, rest, hup, hlong⟩
    have hbytes := hv.up i
    rw [hup, List.flatMap_cons] at hbytes
    obtain ⟨k, hk⟩ := hv.upKnown i p (hup ▸ List.mem_cons_self)
    obtain ⟨script, got, hrecv⟩ := recvFrame_exists m.server block garbage hk hbytes hlong
    exact ⟨script, _, Option.map_eq_some_iff.mpr ⟨got, hrecv, rfl⟩⟩

/-- However the bytes are cut up on their way, the two sides do what they do when whole packets
are exchanged; a packet is taken once all of its bytes have come. -/
theorem bytes_refine_packets {rands : Rands} {g : Globals F} {blocks : Fin 2 → PacketBlock}
    {ls : List (ByteStep F)}
    (h : System.run (byteStep m) (byteStart m rands g blocks) ls = some b) :
    ∃ s, System.run (roomStep m) (roomStart m rands g) (ls.filterMap ByteStep.packetStep) =
        some s ∧ ByteView m b s ∧
      (∀ i block, (∃ script b', byteStep m b (.receive i block script) = some b') ↔
        ∃ message, s.sent[s.processed i]? = some message ∧
          (packetFrame m.server (message.packets i)).length ≤ (b.down i).wire.length) ∧
      ∀ i block garbage, (∃ script b', byteStep m b (.input i block garbage script) = some b') ↔
        ∃ p rest, s.up i = p :: rest ∧
          (packetFrame (m.client i) p).length ≤ (b.up i).wire.length := by
  have hseen : ∀ b s l b' l', ByteView m b s → byteStep m b l = some b' →
      l.packetStep = some l' → ∃ s', roomStep m s l' = some s' ∧ ByteView m b' s' :=
    fun b s l b' l' hv hstep hl => hv.seen hstep hl
  have hunseen : ∀ b s l b', ByteView m b s → byteStep m b l = some b' →
      l.packetStep = none → ByteView m b' s :=
    fun b s l b' hv hstep hl => hv.unseen hstep hl
  obtain ⟨s, hs, hv⟩ := System.run_filterMap hseen hunseen (ByteView.start rands g blocks) h
  exact ⟨s, hs, hv, hv.receive_iff (RoundInv.of_run hs), hv.input_iff⟩

end

end

/-- The first `PACKET_INIT` goes out in two pieces and comes in by five calls of `recv`, one of
them interrupted; the input of a frame goes back in two pieces. -/
def brokenUp : List (ByteStep ℚ) :=
  [.sendDown 0 9, .sendDown 0 199, .sendDown 1 49,
    .receive 0 (uniformBlock 7) [.data 3, .eintr, .data 9, .data 9, .data 199],
    .frame 0 false true 16 1, .network 0 (uniformBlock 8), .sendUp 0 4, .sendUp 0 9]

theorem bytes_refine_packets_brokenUp :
    ∃ b s, System.run (byteStep mixedMatch)
        (byteStart mixedMatch ⟨0, 1, 1⟩ .zero fun _ => uniformBlock 9) brokenUp = some b ∧
      (b.down 1).pending ≠ [] ∧ s.processed 0 = 1 ∧
      System.run (roomStep mixedMatch) (roomStart mixedMatch ⟨0, 1, 1⟩ .zero)
        [.receive 0, .frame 0 false true 16 1, .network 0] = some s ∧
      ByteView mixedMatch b s := by
  have hrun : (System.run (byteStep mixedMatch)
      (byteStart mixedMatch ⟨0, 1, 1⟩ .zero fun _ => uniformBlock 9) brokenUp).map
        (fun b => (b.down 1).pending.isEmpty) = some false := by
    decide +kernel
  obtain ⟨b, hb, hpending⟩ := Option.map_eq_some_iff.mp hrun
  obtain ⟨s, hs, hv, -⟩ := bytes_refine_packets hb
  refine ⟨b, s, hb, ?_, ?_, hs, hv⟩
  · intro hnil
    rw [hnil] at hpending
    cases hpending
  · have hprocessed : (System.run (roomStep mixedMatch) (roomStart mixedMatch ⟨0, 1, 1⟩ .zero)
        (brokenUp.filterMap ByteStep.packetStep)).map (fun s => s.processed 0) = some 1 := by
      decide +kernel
    rw [hs] at hprocessed
    exact Option.some.inj hprocessed

end CPong
