import CPong.Codec

/-!
# Packets over a stream socket

`sendall` and `server_send` of `server.c`; `server_send_packet`, `client_send`, `recvall`
and `recv_packet` of `cpong_packets.c`. The outcomes of the system calls are read off a
script. A stream socket delivers the bytes that were accepted, in order.
-/

namespace CPong

set_option autoImplicit false

open Lib.Words
open Lib.Memory

inductive SendOutcome where
  /-- accepts `more + 1` bytes, or all that is left if that is less -/
  | accepted (more : Nat)
  | error
deriving DecidableEq, Repr

inductive RecvOutcome where
  /-- returns `more + 1` bytes, or as many as asked for if that is less -/
  | data (more : Nat)
  | eintr
  | error
  | eof
deriving DecidableEq, Repr

/-- A block of `MAX_PACKET_SIZE` bytes as `malloc` returns it. -/
abbrev PacketBlock := { block : List Byte // block.length = maxPacketSize }

/-- A block of which every byte is `b`. -/
def uniformBlock (b : Byte) : PacketBlock :=
  ⟨List.replicate maxPacketSize b, List.length_replicate⟩

structure Sent where
  res : Int
  wire : List Byte
  script : List SendOutcome
deriving DecidableEq, Repr

/-- One side's view of a connection: the bytes still to come and the outcomes of the
calls of `recv` that read them. -/
structure Conn where
  stream : List Byte
  script : List RecvOutcome
deriving DecidableEq, Repr

structure Received where
  res : Int
  buf : List Byte
  conn : Conn
deriving DecidableEq, Repr

def sendall (buf : List Byte) (n : Nat) : List SendOutcome → Nat → Guarded Sent
  | script, sent =>
    if sent < n then do
      guardRange buf sent (n - sent)
      match script with
      | [] => .error .blocked
      | .error :: script => return ⟨-1, [], script⟩
      | .accepted more :: script =>
        let res := min (more + 1) (n - sent)
        let rest ← sendall buf n script (sent + res)
        return { rest with wire := (buf.drop sent).take res ++ rest.wire }
    else return ⟨sent, [], script⟩

/-- What becomes of `server->clients` after a failed send is not modelled here. -/
def serverSend (barr : Binarr) (script : List SendOutcome) : Guarded Sent := do
  let sent ← sendall barr.buf barr.size script 0
  return { sent with res := if sent.res = -1 then -1 else 0 }

/-- `recvall` into the `n` bytes of `buf` from `off` on; every call of `recv` is given the
part that is still to be filled. -/
def recvall (off n : Nat) : List RecvOutcome → List Byte → List Byte → Nat → Guarded Received
  | script, stream, buf, received =>
    if received < n then do
      guardRange buf (off + received) (n - received)
      match script with
      | [] => .error .blocked
      | .eintr :: script => recvall off n script stream buf received
      | .error :: script => return ⟨-1, buf, stream, script⟩
      | .eof :: script => return ⟨0, buf, stream, script⟩
      | .data more :: script =>
        let got := stream.take (min (more + 1) (n - received))
        if got = [] then .error .blocked
        else
          recvall off n script (stream.drop got.length) (overwrite buf (off + received) got)
            (received + got.length)
    else return ⟨received, buf, stream, script⟩

inductive Arrival where
  | complete
  | eof
  | error
  | blocked
deriving DecidableEq, Repr

/-- What the script does with a stream of `avail` bytes of which `n` are wanted. -/
def arrival : List RecvOutcome → Nat → Nat → Arrival
  | script, avail, n =>
    if n = 0 then .complete
    else
      match script with
      | [] => .blocked
      | .eintr :: script => arrival script avail n
      | .error :: _ => .error
      | .eof :: _ => .eof
      | .data more :: script =>
        let got := min (min (more + 1) n) avail
        if got = 0 then .blocked else arrival script (avail - got) (n - got)

def RecvOutcome.isData : RecvOutcome → Bool
  | .data _ => true
  | _ => false

def dataCount (script : List RecvOutcome) : Nat := script.countP RecvOutcome.isData

theorem arrival_zero (script : List RecvOutcome) (avail : Nat) :
    arrival script avail 0 = .complete := by
  rw [arrival.eq_def]
  exact if_pos rfl

theorem recvall_done (off n : Nat) (script : List RecvOutcome) (stream buf : List Byte) :
    recvall off n script stream buf n = .ok ⟨n, buf, stream, script⟩ := by
  rw [recvall.eq_def]
  exact if_neg (lt_irrefl n)

/-- What `recvall` has done when it returns: `a` says how the receipt ended. -/
def Recvd (a : Arrival) (off n received : Nat) (script : List RecvOutcome)
    (stream buf : List Byte) (result : Guarded Received) : Prop :=
  match a with
  | .complete => ∃ script', result =
      .ok ⟨n, overwrite buf (off + received) (stream.take (n - received)),
        stream.drop (n - received), script'⟩ ∧
      script' <:+ script ∧ dataCount script ≤ dataCount script' + (n - received)
  | .eof => ∃ r, result = .ok r ∧ r.res = 0 ∧ r.buf.length = buf.length
  | .error => ∃ r, result = .ok r ∧ r.res = -1 ∧ r.buf.length = buf.length
  | .blocked => result = .error .blocked

theorem Recvd.interrupted {a : Arrival} {off n received : Nat} {script : List RecvOutcome}
    {stream buf : List Byte} {result : Guarded Received}
    (h : Recvd a off n received script stream buf result) :
    Recvd a off n received (.eintr :: script) stream buf result := by
  have hcount : dataCount (.eintr :: script) = dataCount script :=
    List.countP_cons_of_neg (by decide)
  cases a with
  | complete =>
    obtain ⟨script', hres, hsuffix, hle⟩ := h
    exact ⟨script', hres, hsuffix.trans (List.suffix_cons _ _), by omega⟩
  | _ => exact h

theorem Recvd.received {a : Arrival} {off n received : Nat} {script : List RecvOutcome}
    {stream buf got : List Byte} {result : Guarded Received}
    (h : Recvd a off n (received + got.length) script (stream.drop got.length)
      (overwrite buf (off + received) got) result)
    (more : Nat) (hgot : stream.take got.length = got) (hpos : 0 < got.length)
    (hn : received + got.length ≤ n) (hbuf : off + n ≤ buf.length) :
    Recvd a off n received (.data more :: script) stream buf result := by
  have hroom : off + received + got.length ≤ buf.length := by omega
  have hlen : (overwrite buf (off + received) got).length = buf.length := length_overwrite hroom
  have hcount : dataCount (.data more :: script) = dataCount script + 1 :=
    List.countP_cons_of_pos rfl
  have hsplit : n - received = got.length + (n - (received + got.length)) := by omega
  cases a with
  | complete =>
    obtain ⟨script', hres, hsuffix, hle⟩ := h
    refine ⟨script', ?_, hsuffix.trans (List.suffix_cons _ _), by omega⟩
    rw [hres, ← Nat.add_assoc off, overwrite_overwrite _ _ hroom, List.drop_drop, hsplit,
      List.take_add, hgot]
  | blocked => exact h
  | _ =>
    obtain ⟨r, hres, hr, hrlen⟩ := h
    exact ⟨r, hres, hr, hrlen.trans hlen⟩

/-- The next call of `recv` has room for what is still wanted. -/
theorem recvall_room {off n received : Nat} {script : List RecvOutcome} {stream buf : List Byte}
    (hlt : received < n) (hbuf : off + n ≤ buf.length) :
    recvall off n script stream buf received =
      match script with
      | [] => .error .blocked
      | .eintr :: script => recvall off n script stream buf received
      | .error :: script => .ok ⟨-1, buf, stream, script⟩
      | .eof :: script => .ok ⟨0, buf, stream, script⟩
      | .data more :: script =>
        let got := stream.take (min (more + 1) (n - received))
        if got = [] then .error .blocked
        else
          recvall off n script (stream.drop got.length) (overwrite buf (off + received) got)
            (received + got.length) := by
  have hguard : guardRange buf (off + received) (n - received) = .ok () :=
    guardRange_eq_ok (by omega)
  rw [recvall.eq_def]
  dsimp only
  rw [if_pos hlt, hguard]
  rfl

theorem recvall_spec {off n received : Nat} {script : List RecvOutcome} {stream buf : List Byte}
    (hn : received ≤ n) (hbuf : off + n ≤ buf.length) :
    Recvd (arrival script stream.length (n - received)) off n received script stream buf
      (recvall off n script stream buf received) := by
  induction script generalizing received stream buf with
  | nil =>
    rcases hn.eq_or_lt with rfl | hlt
    · rw [Nat.sub_self, arrival_zero, recvall_done]
      exact ⟨[], by simp [overwrite], List.suffix_refl _, by simp⟩
    · have hne : n - received ≠ 0 := by omega
      rw [recvall_room hlt hbuf, arrival, if_neg hne]
      rfl
  | cons o script ih =>
    rcases hn.eq_or_lt with rfl | hlt
    · rw [Nat.sub_self, arrival_zero, recvall_done]
      exact ⟨_, by simp [overwrite], List.suffix_refl _, by simp⟩
    have hne : n - received ≠ 0 := by omega
    cases o with
    | eintr =>
      rw [recvall_room hlt hbuf, arrival, if_neg hne]
      exact (ih hn hbuf).interrupted
    | error =>
      rw [recvall_room hlt hbuf, arrival, if_neg hne]
      exact ⟨_, rfl, rfl, rfl⟩
    | eof =>
      rw [recvall_room hlt hbuf, arrival, if_neg hne]
      exact ⟨_, rfl, rfl, rfl⟩
    | data more =>
      have hgot : (stream.take (min (more + 1) (n - received))).length =
          min (min (more + 1) (n - received)) stream.length := List.length_take
      rw [recvall_room hlt hbuf, arrival, if_neg hne]
      simp only [← hgot]
      generalize hg : stream.take (min (more + 1) (n - received)) = got at hgot
      rcases eq_or_ne got [] with rfl | hgne
      · exact rfl
      · have hpos : got.length ≠ 0 := fun h => hgne (List.length_eq_zero_iff.mp h)
        have hle : received + got.length ≤ n := by omega
        have hprefix : stream.take got.length = got := by
          rw [← hg, List.take_eq_take_iff, List.length_take]
          omega
        rw [if_neg hgne, if_neg hpos, ← List.length_drop, Nat.sub_sub]
        have hbuf' : off + n ≤ (overwrite buf (off + received) got).length := by
          rwa [length_overwrite (by omega)]
        exact (ih hle hbuf').received more hprefix (Nat.pos_of_ne_zero hpos) hle hbuf

theorem recvall_start {off n : Nat} {buf : List Byte} (hbuf : off + n ≤ buf.length)
    (script : List RecvOutcome) (stream : List Byte) :
    Recvd (arrival script stream.length n) off n 0 script stream buf
      (recvall off n script stream buf 0) := by
  have hspec : Recvd (arrival script stream.length (n - 0)) off n 0 script stream buf
      (recvall off n script stream buf 0) := recvall_spec (Nat.zero_le _) hbuf
  rwa [Nat.sub_zero] at hspec

theorem PacketBlock.headerRoom (block : PacketBlock) :
    0 + packetHeaderSize ≤ block.val.length := by
  rw [block.property]
  decide

theorem PacketBlock.packetRoom (block : PacketBlock) (k : CpongPacket) :
    packetHeaderSize + payloadLength k ≤ block.val.length := by
  have hle := payloadLength_le k
  have hblock : block.val.length = 200 := block.property
  unfold packetHeaderSize
  omega

/-- The block falls into the room for the header, that for the payload, and what is left. -/
theorem PacketBlock.split (block : PacketBlock) (k : CpongPacket) :
    ∃ header payload free, block.val = header ++ (payload ++ free) ∧
      header.length = packetHeaderSize ∧ payload.length = payloadLength k := by
  have hroom := block.packetRoom k
  refine ⟨block.val.take packetHeaderSize, (block.val.drop packetHeaderSize).take (payloadLength k),
    (block.val.drop packetHeaderSize).drop (payloadLength k), ?_, ?_, ?_⟩
  · rw [List.take_append_drop, List.take_append_drop]
  · rw [List.length_take]
    omega
  · rw [List.length_take, List.length_drop]
    omega

def sizeT (i : I32) : Nat := (i.signExtend 64).toNat

section Packets
variable {F : Type} [Field F] [LinearOrder F] [FloorRing F] (host : Host F)

def serverSendPacket (block : PacketBlock) (packet : Packet F) (script : List SendOutcome) :
    Guarded Sent := do
  let (known, barr) ← packetSerialize host (binarrNew block) packet
  if ¬ known then return ⟨-1, [], script⟩
  else serverSend barr script

def clientSend (block : PacketBlock) (packet : Packet F) (script : List SendOutcome) :
    Guarded Sent := do
  let (known, barr) ← packetSerialize host (binarrNew block) packet
  if ¬ known then return ⟨-1, [], script⟩
  else sendall barr.buf barr.size script 0

structure RecvPacket (F : Type) where
  res : Int
  result : Packet F
  conn : Conn
deriving DecidableEq

def recvPacket (block : PacketBlock) (result : Packet F) (conn : Conn) :
    Guarded (RecvPacket F) := do
  let barr := binarrNew block
  let header ← recvall 0 packetHeaderSize conn.script conn.stream barr.buf 0
  let barr := { barr with buf := header.buf, size := (barr.size + header.res).toNat }
  if header.res ≤ 0 then return ⟨header.res, result, header.conn⟩
  else
    let (_, barr) ← binarrReadI8 barr
    let (_, barr) ← binarrReadI8 barr
    let (packetSize, barr) ← binarrReadI32N host barr
    let data ← recvall barr.size (sizeT packetSize) header.conn.script header.conn.stream barr.buf 0
    let barr := { barr with buf := data.buf, index := 0 }
    if data.res ≤ 0 then return ⟨data.res, result, data.conn⟩
    else
      let (_, result, _) ← packetDeserialize host result barr
      return ⟨header.res + data.res, result, data.conn⟩

/-- `recv_packet` after a complete header that announces `packetSize`. -/
def recvPayload (packetSize : I32) (buf : List Byte) (result : Packet F) (conn : Conn) :
    Guarded (RecvPacket F) := do
  let data ← recvall packetHeaderSize (sizeT packetSize) conn.script conn.stream buf 0
  if data.res ≤ 0 then return ⟨data.res, result, data.conn⟩
  else
    let (_, result, _) ← packetDeserialize host result ⟨data.buf, packetHeaderSize, 0⟩
    return ⟨packetHeaderSize + data.res, result, data.conn⟩

omit [LinearOrder F] [FloorRing F] in
theorem recvPacket_of_header {block : PacketBlock} {result : Packet F} {conn conn' : Conn}
    {type sync : Byte} {packetSize : I32} {tail : List Byte}
    (h : recvall 0 packetHeaderSize conn.script conn.stream block.val 0 =
      .ok ⟨packetHeaderSize, type :: sync :: (store .big 4 packetSize ++ tail), conn'⟩) :
    recvPacket host block result conn =
      recvPayload host packetSize (type :: sync :: (store .big 4 packetSize ++ tail)) result
        conn' := by
  have hreads : (⟨type :: sync :: (store .big 4 packetSize ++ tail), 6, 0⟩ : Binarr) =
      cursor [] (type :: sync :: (store .big 4 packetSize ++ tail)) 6 := rfl
  have hpos : ¬ ((packetHeaderSize : Int) ≤ 0) := by decide
  have hsize : ((0 : Nat) + (packetHeaderSize : Int)).toNat = 6 := rfl
  simp only [recvPacket, recvPayload, binarrNew, h, ok_bind, if_neg hpos, hsize, hreads,
    binarrReadI8_cursor, binarrReadI32N_cursor]
  rfl

omit [LinearOrder F] [FloorRing F] in
theorem recvPacket_of_no_header {block : PacketBlock} {result : Packet F} {conn conn' : Conn}
    {res : Int} {buf : List Byte} (hres : res ≤ 0)
    (h : recvall 0 packetHeaderSize conn.script conn.stream block.val 0 = .ok ⟨res, buf, conn'⟩) :
    recvPacket host block result conn = .ok ⟨res, result, conn'⟩ := by
  simp only [recvPacket, binarrNew, h, ok_bind, if_pos hres, pure_eq_ok]

end Packets

end CPong
