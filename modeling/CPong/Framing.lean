import CPong.Socket

/-!
# Framing

However the system splits the bytes of a connection, the packets sent are the packets
received, one call of `recv_packet` for each.
-/

namespace CPong

set_option autoImplicit false

open Lib.Words
open Lib.Memory

section Sending

def AllAccepted (script : List SendOutcome) : Prop := ∀ o ∈ script, ∃ more, o = .accepted more

/-- One `send` takes some of what is left, and the loop goes on behind it. -/
theorem sendall_send (done todo rest : List Byte) (hpos : 0 < todo.length) (more : Nat)
    (script : List SendOutcome) {res : Nat} (hres : min (more + 1) todo.length = res) :
    sendall (done ++ (todo ++ rest)) (done.length + todo.length) (.accepted more :: script)
        done.length = (do
      let r ← sendall (done ++ (todo ++ rest)) (done.length + todo.length) script
        (done.length + res)
      .ok { r with wire := todo.take res ++ r.wire }) := by
  have hguard : guardRange (done ++ (todo ++ rest)) done.length todo.length = .ok () :=
    guardRange_eq_ok (by simp only [List.length_append]; omega)
  have htake : ((done ++ (todo ++ rest)).drop done.length).take res = todo.take res := by
    rw [List.drop_left, List.take_append_of_le_length (by omega)]
  rw [sendall, if_pos (by omega), Nat.add_sub_cancel_left, hguard, ok_bind]
  simp only [hres, htake, pure_eq_ok]

theorem sendall_accepted {script : List SendOutcome} (hscript : AllAccepted script)
    (done todo rest : List Byte) :
    (∃ script', sendall (done ++ (todo ++ rest)) (done.length + todo.length) script done.length =
        .ok ⟨(done.length + todo.length : Nat), todo, script'⟩ ∧ AllAccepted script' ∧
        script.length ≤ script'.length + todo.length) ∨
      sendall (done ++ (todo ++ rest)) (done.length + todo.length) script done.length =
        .error .blocked ∧ script.length < todo.length := by
  induction script generalizing done todo with
  | nil =>
    cases todo with
    | nil =>
      refine Or.inl ⟨[], ?_, hscript, by simp⟩
      simp [sendall]
    | cons b todo =>
      refine Or.inr ⟨?_, by simp⟩
      have hguard : guardRange (done ++ (b :: todo ++ rest)) done.length (b :: todo).length =
          .ok () := guardRange_eq_ok (by simp only [List.length_append]; omega)
      rw [sendall, if_pos (by simp), Nat.add_sub_cancel_left, hguard]
      rfl
  | cons o script ih =>
    obtain ⟨more, rfl⟩ := hscript o List.mem_cons_self
    have htail : AllAccepted script := fun o ho => hscript o (List.mem_cons_of_mem _ ho)
    rcases Nat.eq_zero_or_pos todo.length with h0 | hpos
    · have hnil : todo = [] := List.length_eq_zero_iff.mp h0
      subst hnil
      refine Or.inl ⟨_, ?_, hscript, by simp⟩
      simp [sendall]
    · have hsend := sendall_send done todo rest hpos more script rfl
      have hres : 0 < min (more + 1) todo.length := by omega
      have hle : min (more + 1) todo.length ≤ todo.length := Nat.min_le_right _ _
      generalize min (more + 1) todo.length = res at hsend hres hle
      have hsplit : done ++ (todo ++ rest) = done ++ todo.take res ++ (todo.drop res ++ rest) := by
        rw [List.append_assoc, ← List.append_assoc (todo.take res), List.take_append_drop]
      have hdone : (done ++ todo.take res).length = done.length + res := by
        simp only [List.length_append, List.length_take]
        omega
      have hn : (done ++ todo.take res).length + (todo.drop res).length =
          done.length + todo.length := by
        rw [hdone, List.length_drop]
        omega
      have hrest := ih htail (done ++ todo.take res) (todo.drop res)
      rw [← hsplit, hn, hdone] at hrest
      rcases hrest with ⟨script', hrun, hclean, hcount⟩ | ⟨hrun, hcount⟩
      · refine Or.inl ⟨script', ?_, hclean, ?_⟩
        · rw [hsend, hrun, ok_bind, List.take_append_drop]
        · rw [List.length_drop] at hcount
          rw [List.length_cons]
          omega
      · refine Or.inr ⟨?_, ?_⟩
        · rw [hsend, hrun]
          rfl
        · rw [List.length_drop] at hcount
          rw [List.length_cons]
          omega

end Sending

section Receiving

def Delivers (script : List RecvOutcome) : Prop := ∀ o ∈ script, o.isData ∨ o = .eintr

theorem arrival_delivers {script : List RecvOutcome} (hscript : Delivers script) {avail n : Nat}
    (hn : n ≤ avail) : arrival script avail n = .complete ∨
      arrival script avail n = .blocked ∧ dataCount script < n := by
  induction script generalizing avail n with
  | nil =>
    rcases Nat.eq_zero_or_pos n with rfl | hpos
    · exact Or.inl (arrival_zero [] avail)
    · refine Or.inr ⟨?_, hpos⟩
      rw [arrival, if_neg hpos.ne']
  | cons o script ih =>
    have htail : Delivers script := fun o ho => hscript o (List.mem_cons_of_mem _ ho)
    rcases Nat.eq_zero_or_pos n with rfl | hpos
    · exact Or.inl (arrival_zero _ avail)
    cases o with
    | data more =>
      have hcount : dataCount (.data more :: script) = dataCount script + 1 :=
        List.countP_cons_of_pos rfl
      have hgot : min (min (more + 1) n) avail ≠ 0 := by omega
      rw [arrival, if_neg hpos.ne', if_neg hgot, hcount]
      have hleft : n - min (min (more + 1) n) avail ≤ avail - min (min (more + 1) n) avail := by
        omega
      rcases ih htail hleft with hdone | ⟨hwait, hlt⟩
      · exact Or.inl hdone
      · exact Or.inr ⟨hwait, by omega⟩
    | eintr =>
      have hcount : dataCount (.eintr :: script) = dataCount script :=
        List.countP_cons_of_neg (by decide)
      rw [arrival, if_neg hpos.ne', hcount]
      exact ih htail hn
    | error => exact absurd (hscript _ List.mem_cons_self) (by decide)
    | eof => exact absurd (hscript _ List.mem_cons_self) (by decide)

/-- More than has arrived is waited for. -/
theorem arrival_short {script : List RecvOutcome} (hscript : Delivers script) {avail n : Nat}
    (hn : avail < n) : arrival script avail n = .blocked := by
  induction script generalizing avail n with
  | nil =>
    have hne : n ≠ 0 := by omega
    rw [arrival, if_neg hne]
  | cons o script ih =>
    have htail : Delivers script := fun o ho => hscript o (List.mem_cons_of_mem _ ho)
    have hne : n ≠ 0 := by omega
    cases o with
    | data more =>
      rw [arrival, if_neg hne]
      by_cases hgot : min (min (more + 1) n) avail = 0
      · rw [if_pos hgot]
      · rw [if_neg hgot]
        exact ih htail (by omega)
    | eintr =>
      rw [arrival, if_neg hne]
      exact ih htail hn
    | error => exact absurd (hscript _ List.mem_cons_self) (by decide)
    | eof => exact absurd (hscript _ List.mem_cons_self) (by decide)

theorem recvall_short {script : List RecvOutcome} (hscript : Delivers script) {off n : Nat}
    {stream buf : List Byte} (hbuf : off + n ≤ buf.length) (hn : stream.length < n) :
    recvall off n script stream buf 0 = .error .blocked := by
  have hspec := recvall_start hbuf script stream
  rw [arrival_short hscript hn] at hspec
  exact hspec

theorem recvall_delivers {script : List RecvOutcome} (hscript : Delivers script)
    (pre bs old post rest : List Byte) {off : Nat} (hold : old.length = bs.length)
    (hpre : pre.length = off) :
    (∃ script', recvall off bs.length script (bs ++ rest) (pre ++ (old ++ post)) 0 =
        .ok ⟨bs.length, pre ++ (bs ++ post), rest, script'⟩ ∧
        Delivers script' ∧ dataCount script ≤ dataCount script' + bs.length) ∨
      recvall off bs.length script (bs ++ rest) (pre ++ (old ++ post)) 0 = .error .blocked ∧
        dataCount script < bs.length := by
  have hroom : off + bs.length ≤ (pre ++ (old ++ post)).length := by
    simp only [List.length_append]
    omega
  have hspec := recvall_start hroom script (bs ++ rest)
  have havail : bs.length ≤ (bs ++ rest).length := by
    rw [List.length_append]
    omega
  rcases arrival_delivers hscript havail with hdone | ⟨hwait, hlt⟩
  · rw [hdone] at hspec
    obtain ⟨script', hrun, hsuffix, hcount⟩ := hspec
    refine Or.inl ⟨script', ?_, fun o ho => hscript o (hsuffix.subset ho), hcount⟩
    rw [hrun, Nat.sub_zero, Nat.add_zero, List.take_left, List.drop_left, ← hpre,
      overwrite_append pre old post bs hold]
  · rw [hwait] at hspec
    exact Or.inr ⟨hspec, hlt⟩

theorem recvPacket_delivers {F : Type} [Field F] [LinearOrder F] [FloorRing F]
    (sender receiver : Host F) {k : CpongPacket} {p : Packet F}
    (hk : CpongPacket.ofCode p.type = some k) (block : PacketBlock) (r : Packet F)
    (rest : List Byte) {script : List RecvOutcome} (hscript : Delivers script) :
    (∃ script', recvPacket receiver block r ⟨frame sender k p ++ rest, script⟩ =
        .ok ⟨(frame sender k p).length,
          packetImage (receivedFloat sender) sender.endian receiver.endian k p r,
          ⟨rest, script'⟩⟩ ∧
        Delivers script' ∧ dataCount script ≤ dataCount script' + (frame sender k p).length) ∨
      recvPacket receiver block r ⟨frame sender k p ++ rest, script⟩ = .error .blocked ∧
        dataCount script < (frame sender k p).length := by
  obtain ⟨h, d, free, hbuf, hh, hd⟩ := block.split k
  have hlen := length_frame sender k p
  have hpos := payloadLength_pos k
  have hsize : sizeT (BitVec.ofNat 32 (payloadLength k)) = payloadLength k := by
    cases k <;> rfl
  generalize hhead : (p.type :: p.sync ::
    store .big 4 (BitVec.ofNat 32 (payloadLength k) : I32)) = head
  have hheadlen : head.length = packetHeaderSize := by
    rw [← hhead]
    simp [packetHeaderSize]
  have hframe : frame sender k p = head ++ payload sender k p.data := by
    rw [← hhead]
    rfl
  have hheader := recvall_delivers hscript [] head h (d ++ free) (payload sender k p.data ++ rest)
    (hh.trans hheadlen.symm) List.length_nil
  rw [hheadlen, List.nil_append, List.nil_append, ← hbuf] at hheader
  rw [hlen, hframe, List.append_assoc]
  rcases hheader with ⟨script₁, hrun, hclean, hcount⟩ | ⟨hrun, hcount⟩
  · have hdata := recvall_delivers hclean head (payload sender k p.data) d free rest
      (hd.trans (length_payload sender k p.data).symm) hheadlen
    rw [length_payload] at hdata
    have hbytes : head ++ (d ++ free) = p.type :: p.sync ::
        (store .big 4 (BitVec.ofNat 32 (payloadLength k) : I32) ++ (d ++ free)) := by
      rw [← hhead]
      rfl
    rw [hbytes] at hrun hdata
    rw [recvPacket_of_header receiver hrun, recvPayload, hsize]
    rcases hdata with ⟨script₂, hrun₂, hclean₂, hcount₂⟩ | ⟨hrun₂, hcount₂⟩
    · refine Or.inl ⟨script₂, ?_, hclean₂, by omega⟩
      have hread := packetDeserialize_frame sender receiver hk r free packetHeaderSize 0
      rw [hframe, List.append_assoc] at hread
      have hres : ¬ (((payloadLength k : Nat) : Int) ≤ 0) := by omega
      simp only [hrun₂, ok_bind, if_neg hres, hread, pure_eq_ok, Nat.cast_add]
    · refine Or.inr ⟨?_, by omega⟩
      rw [hrun₂]
      rfl
  · refine Or.inr ⟨?_, by omega⟩
    simp only [recvPacket, binarrNew]
    rw [hrun]
    rfl

/-- Before the whole frame has arrived `recv_packet` does not come back. -/
theorem recvPacket_short {F : Type} [Field F] [LinearOrder F] [FloorRing F]
    (sender receiver : Host F) (k : CpongPacket) (p : Packet F) (block : PacketBlock)
    (r : Packet F) {stream rest : List Byte} {script : List RecvOutcome}
    (hscript : Delivers script) (hstream : stream ++ rest = frame sender k p)
    (hshort : stream.length < (frame sender k p).length) :
    recvPacket receiver block r ⟨stream, script⟩ = .error .blocked := by
  by_cases hheader : stream.length < packetHeaderSize
  · simp only [recvPacket, binarrNew, recvall_short hscript block.headerRoom hheader]
    rfl
  obtain ⟨h, d, free, hbuf, hh, hd⟩ := block.split k
  have hsize : sizeT (BitVec.ofNat 32 (payloadLength k)) = payloadLength k := by
    cases k <;> rfl
  generalize hhead : (p.type :: p.sync ::
    store .big 4 (BitVec.ofNat 32 (payloadLength k) : I32)) = head
  have hheadlen : head.length = packetHeaderSize := by
    rw [← hhead]
    simp [packetHeaderSize]
  have hframe : frame sender k p = head ++ payload sender k p.data := by
    rw [← hhead]
    rfl
  -- The header has arrived, and the payload has not.
  obtain ⟨got, rfl⟩ : head <+: stream := by
    rw [hframe] at hstream
    exact List.prefix_of_prefix_length_le ⟨_, rfl⟩ ⟨_, hstream⟩ (by omega)
  have hgot : got.length < payloadLength k := by
    rw [length_frame, List.length_append, hheadlen] at hshort
    omega
  rcases recvall_delivers hscript [] head h (d ++ free) got (hh.trans hheadlen.symm)
    List.length_nil with ⟨script₁, hrun, hclean, -⟩ | ⟨hrun, -⟩
  · rw [hheadlen, List.nil_append, List.nil_append, ← hbuf] at hrun
    have hroom : packetHeaderSize + payloadLength k ≤ (head ++ (d ++ free)).length := by
      have hblock := block.packetRoom k
      rw [hbuf] at hblock
      simp only [List.length_append] at hblock ⊢
      omega
    have hbytes : head ++ (d ++ free) = p.type :: p.sync ::
        (store .big 4 (BitVec.ofNat 32 (payloadLength k) : I32) ++ (d ++ free)) := by
      rw [← hhead]
      rfl
    rw [hbytes] at hrun hroom
    rw [recvPacket_of_header receiver hrun, recvPayload, hsize, recvall_short hclean hroom hgot]
    rfl
  · rw [hheadlen, List.nil_append, ← hbuf] at hrun
    simp only [recvPacket, binarrNew, hrun]
    rfl

end Receiving

section Connection
variable {F : Type} [Field F] [LinearOrder F] [FloorRing F] (sender receiver : Host F)

inductive SendFn where
  | clientSend
  | serverSendPacket
deriving DecidableEq, Repr

/-- One call that sends a packet, with the block that its `malloc` returns. -/
structure SendCall (F : Type) where
  fn : SendFn
  block : PacketBlock
  packet : Packet F

def SendCall.run (call : SendCall F) (script : List SendOutcome) : Guarded Sent :=
  match call.fn with
  | .clientSend => clientSend sender call.block call.packet script
  | .serverSendPacket => serverSendPacket sender call.block call.packet script

def sendPackets : List (SendCall F) → List SendOutcome → Guarded (List Int × List Byte)
  | [], _ => return ([], [])
  | call :: calls, script => do
    let sent ← call.run sender script
    let (results, wire) ← sendPackets calls sent.script
    return (sent.res :: results, sent.wire ++ wire)

omit [LinearOrder F] [FloorRing F] in
def recvPackets : List (PacketBlock × Packet F) → Conn → Guarded (List (Int × Packet F) × Conn)
  | [], conn => return ([], conn)
  | slot :: slots, conn => do
    let got ← recvPacket receiver slot.1 slot.2 conn
    let (rest, conn) ← recvPackets slots got.conn
    return ((got.res, got.result) :: rest, conn)

def packetFrame (p : Packet F) : List Byte :=
  match CpongPacket.ofCode p.type with
  | some k => frame sender k p
  | none => []

/-- What the receiver of `p` finds in a packet that held `r`. -/
def packetReceived (p r : Packet F) : Packet F :=
  match CpongPacket.ofCode p.type with
  | some k => packetImage (receivedFloat sender) sender.endian receiver.endian k p r
  | none => r

def SendCall.success (call : SendCall F) : Int :=
  match call.fn with
  | .clientSend => (packetFrame sender call.packet).length
  | .serverSendPacket => 0

def callFrames (calls : List (SendCall F)) : List Byte :=
  calls.flatMap fun call => packetFrame sender call.packet

def Known (calls : List (SendCall F)) : Prop :=
  ∀ call ∈ calls, ∃ k : CpongPacket, call.packet.type = k.code

theorem packetFrame_of_type {p : Packet F} {k : CpongPacket} (h : p.type = k.code) :
    packetFrame sender p = frame sender k p := by
  rw [packetFrame, h, CpongPacket.ofCode_code]

theorem packetReceived_of_type {p : Packet F} {k : CpongPacket} (h : p.type = k.code)
    (r : Packet F) : packetReceived sender receiver p r =
      packetImage (receivedFloat sender) sender.endian receiver.endian k p r := by
  rw [packetReceived, h, CpongPacket.ofCode_code]

theorem SendCall.run_accepted {call : SendCall F} {k : CpongPacket}
    (htype : call.packet.type = k.code) {script : List SendOutcome} (hscript : AllAccepted script) :
    (∃ script', call.run sender script =
        .ok ⟨call.success sender, packetFrame sender call.packet, script'⟩ ∧ AllAccepted script' ∧
        script.length ≤ script'.length + (packetFrame sender call.packet).length) ∨
      call.run sender script = .error .blocked ∧
        script.length < (packetFrame sender call.packet).length := by
  have hk : CpongPacket.ofCode call.packet.type = some k := htype ▸ CpongPacket.ofCode_code k
  have hroom := call.block.packetRoom k
  have hser := packetSerialize_new sender hk hroom
  have hsend := sendall_accepted hscript [] (frame sender k call.packet)
    (call.block.val.drop (packetHeaderSize + payloadLength k))
  simp only [List.nil_append, List.length_nil, Nat.zero_add] at hsend
  rw [packetFrame_of_type sender htype]
  rcases hsend with ⟨script', hrun, hclean, hcount⟩ | ⟨hrun, hcount⟩
  · refine Or.inl ⟨script', ?_, hclean, hcount⟩
    have hres : ¬ (((frame sender k call.packet).length : Int) = -1) := by omega
    cases hfn : call.fn with
    | clientSend =>
      simp only [SendCall.run, SendCall.success, hfn, clientSend, hser, ok_bind, hrun, filled_buf,
        filled_size, packetFrame_of_type sender htype, not_true, if_false]
    | serverSendPacket =>
      simp only [SendCall.run, SendCall.success, hfn, serverSendPacket, serverSend, hser, ok_bind,
        hrun, filled_buf, filled_size, not_true, if_false, if_neg hres, pure_eq_ok]
  · refine Or.inr ⟨?_, hcount⟩
    cases hfn : call.fn with
    | clientSend =>
      simp only [SendCall.run, hfn, clientSend, hser, ok_bind, hrun, filled_buf, filled_size,
        not_true, if_false]
    | serverSendPacket =>
      simp only [SendCall.run, hfn, serverSendPacket, serverSend, hser, ok_bind, hrun, filled_buf,
        filled_size, not_true, if_false]
      rfl

theorem sendPackets_accepted {calls : List (SendCall F)} (hknown : Known calls)
    {script : List SendOutcome} (hscript : AllAccepted script) :
    sendPackets sender calls script =
        .ok (calls.map (SendCall.success sender), callFrames sender calls) ∨
      sendPackets sender calls script = .error .blocked ∧
        script.length < (callFrames sender calls).length := by
  induction calls generalizing script with
  | nil => exact Or.inl rfl
  | cons call calls ih =>
    obtain ⟨k, htype⟩ := hknown call List.mem_cons_self
    have htail : Known calls := fun c hc => hknown c (List.mem_cons_of_mem _ hc)
    have hframes : callFrames sender (call :: calls) =
        packetFrame sender call.packet ++ callFrames sender calls := List.flatMap_cons
    rw [hframes, List.length_append]
    rcases SendCall.run_accepted sender htype hscript with ⟨script', hrun, hclean, hcount⟩ |
      ⟨hrun, hcount⟩
    · rcases ih htail hclean with hrest | ⟨hrest, hlt⟩
      · apply Or.inl
        simp only [sendPackets, hrun, ok_bind, hrest, pure_eq_ok, List.map_cons]
      · refine Or.inr ⟨?_, by omega⟩
        simp only [sendPackets, hrun, ok_bind, hrest]
        rfl
    · refine Or.inr ⟨?_, by omega⟩
      simp only [sendPackets, hrun]
      rfl

theorem recvPackets_delivers {calls : List (SendCall F)} (hknown : Known calls)
    (slots : List (PacketBlock × Packet F)) (hslots : slots.length ≤ calls.length)
    (more : List Byte) {script : List RecvOutcome} (hscript : Delivers script) :
    (∃ script', recvPackets receiver slots ⟨callFrames sender calls ++ more, script⟩ =
        .ok (List.zipWith (fun call slot => (((packetFrame sender call.packet).length : Int),
            packetReceived sender receiver call.packet slot.2)) calls slots,
          ⟨callFrames sender (calls.drop slots.length) ++ more, script'⟩)) ∨
      recvPackets receiver slots ⟨callFrames sender calls ++ more, script⟩ = .error .blocked ∧
        dataCount script < (callFrames sender (calls.take slots.length)).length := by
  induction slots generalizing calls script with
  | nil => exact Or.inl ⟨script, by simp [recvPackets]⟩
  | cons slot slots ih =>
    cases calls with
    | nil => simp at hslots
    | cons call calls =>
      obtain ⟨k, htype⟩ := hknown call List.mem_cons_self
      have htail : Known calls := fun c hc => hknown c (List.mem_cons_of_mem _ hc)
      have hk : CpongPacket.ofCode call.packet.type = some k := htype ▸ CpongPacket.ofCode_code k
      have hframes : ∀ cs, callFrames sender (call :: cs) =
          packetFrame sender call.packet ++ callFrames sender cs := fun cs => List.flatMap_cons
      have hone := recvPacket_delivers sender receiver hk slot.1 slot.2
        (callFrames sender calls ++ more) hscript
      rw [← packetFrame_of_type sender htype,
        ← packetReceived_of_type sender receiver htype] at hone
      simp only [List.length_cons, List.drop_succ_cons, List.take_succ_cons, hframes,
        List.append_assoc, List.zipWith_cons_cons, List.length_append]
      rcases hone with ⟨script', hrun, hclean, hcount⟩ | ⟨hrun, hcount⟩
      · rcases ih htail (Nat.le_of_succ_le_succ hslots) hclean with ⟨script'', hrest⟩ |
          ⟨hrest, hlt⟩
        · refine Or.inl ⟨script'', ?_⟩
          simp only [recvPackets, hrun, ok_bind, hrest, pure_eq_ok]
        · refine Or.inr ⟨?_, by omega⟩
          simp only [recvPackets, hrun, ok_bind, hrest]
          rfl
      · refine Or.inr ⟨?_, by omega⟩
        simp only [recvPackets, hrun]
        rfl

theorem packetFrame_pos {calls : List (SendCall F)} (hknown : Known calls) :
    ∀ call ∈ calls, 0 < (packetFrame sender call.packet).length := by
  intro call hcall
  obtain ⟨k, htype⟩ := hknown call hcall
  rw [packetFrame_of_type sender htype, length_frame]
  have hpos := payloadLength_pos k
  omega

/-- The packets that one side sends are the packets the other side receives, in order and
each in one call, and after any number of calls the stream stands at the next frame. A
call that has not returned is waiting for the system to take or to deliver a byte. -/
theorem stream_framing {calls : List (SendCall F)} (hknown : Known calls)
    {sendScript : List SendOutcome} (hsend : AllAccepted sendScript) :
    (∀ call ∈ calls, 0 < (packetFrame sender call.packet).length) ∧
    ((∃ wire, sendPackets sender calls sendScript =
          .ok (calls.map (SendCall.success sender), wire) ∧
        ∀ slots : List (PacketBlock × Packet F), slots.length ≤ calls.length →
        ∀ more recvScript, Delivers recvScript →
          (∃ script', recvPackets receiver slots ⟨wire ++ more, recvScript⟩ =
            .ok (List.zipWith (fun call slot => (((packetFrame sender call.packet).length : Int),
                packetReceived sender receiver call.packet slot.2)) calls slots,
              ⟨callFrames sender (calls.drop slots.length) ++ more, script'⟩)) ∨
          recvPackets receiver slots ⟨wire ++ more, recvScript⟩ = .error .blocked ∧
            dataCount recvScript < (callFrames sender (calls.take slots.length)).length) ∨
      sendPackets sender calls sendScript = .error .blocked ∧
        sendScript.length < (callFrames sender calls).length) := by
  refine ⟨packetFrame_pos sender hknown, ?_⟩
  rcases sendPackets_accepted sender hknown hsend with hsent | hwait
  · refine Or.inl ⟨_, hsent, ?_⟩
    intro slots hslots more recvScript hrecv
    exact recvPackets_delivers sender receiver hknown slots hslots more hrecv
  · exact Or.inr hwait

end Connection

def twoInputs : List (SendCall ℚ) :=
  [⟨.clientSend, ⟨List.replicate 200 0, List.length_replicate⟩, inputPacket 0 5⟩,
    ⟨.clientSend, ⟨List.replicate 200 0, List.length_replicate⟩, inputPacket 1 (-5)⟩]

theorem stream_framing_twoInputs :
    ∃ wire, sendPackets ⟨.little, 0⟩ twoInputs (List.replicate 20 (.accepted 0)) =
        .ok ([10, 10], wire) ∧
      ∀ slots : List (PacketBlock × Packet ℚ), slots.length ≤ 2 →
      ∀ more recvScript, Delivers recvScript →
        (∃ script', recvPackets ⟨.big, 0⟩ slots ⟨wire ++ more, recvScript⟩ =
          .ok (List.zipWith (fun call slot =>
              (((packetFrame ⟨.little, 0⟩ call.packet).length : Int),
                packetReceived ⟨.little, 0⟩ ⟨.big, 0⟩ call.packet slot.2)) twoInputs slots,
            ⟨callFrames ⟨.little, 0⟩ (twoInputs.drop slots.length) ++ more, script'⟩)) ∨
        recvPackets ⟨.big, 0⟩ slots ⟨wire ++ more, recvScript⟩ = .error .blocked ∧
          dataCount recvScript < (callFrames ⟨.little, 0⟩ (twoInputs.take slots.length)).length := by
  have hknown : Known twoInputs := by
    intro call hcall
    simp only [twoInputs, List.mem_cons, List.not_mem_nil, or_false] at hcall
    rcases hcall with rfl | rfl <;> exact ⟨.input, rfl⟩
  have hsend : AllAccepted (List.replicate 20 (.accepted 0)) := fun o ho =>
    ⟨0, List.eq_of_mem_replicate ho⟩
  have h := (stream_framing ⟨.little, 0⟩ ⟨.big, 0⟩ hknown hsend).2
  exact h.resolve_right fun hwait => absurd hwait.2 (by decide)

end CPong
