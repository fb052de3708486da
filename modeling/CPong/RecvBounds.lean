import CPong.Socket

/-!
# The receive buffer

`recv_packet` reads the payload into what is left of a buffer of `MAX_PACKET_SIZE` bytes,
whatever length the header announces.
-/

namespace CPong

set_option autoImplicit false

open Lib.Words
open Lib.Memory

def Binarr.skip (barr : Binarr) (n : Nat) : Binarr := { barr with index := barr.index + n }

@[simp] theorem Binarr.skip_buf (barr : Binarr) (n : Nat) : (barr.skip n).buf = barr.buf := rfl
@[simp] theorem Binarr.skip_index (barr : Binarr) (n : Nat) :
    (barr.skip n).index = barr.index + n := rfl

/-- `result` is a read of `n` bytes of `barr`, if the buffer has them. -/
def Reads {α : Type} (n : Nat) (barr : Binarr) (result : Guarded (α × Binarr)) : Prop :=
  barr.index + n ≤ barr.buf.length → ∃ a, result = .ok (a, barr.skip n)

/-- Where `result` succeeds it has read the next `n` bytes of `barr`, and these are there. -/
def Takes {α : Type} (n : Nat) (barr : Binarr) (result : Guarded (α × Binarr)) : Prop :=
  ∀ a barr', result = .ok (a, barr') →
    barr' = barr.skip n ∧ barr.index + n ≤ barr.buf.length

/-- `result` is a read of the next `n` bytes of `barr`, which succeeds where the buffer has them
and nowhere else. -/
structure ReadsExactly {α : Type} (n : Nat) (barr : Binarr) (result : Guarded (α × Binarr)) :
    Prop where
  reads : Reads n barr result
  takes : Takes n barr result

section Reading
variable {α β γ : Type} {n m k : Nat} {barr : Binarr} {result : Guarded (α × Binarr)}

theorem ReadsExactly.last {next : α × Binarr → Guarded (β × Binarr)}
    (h : ReadsExactly n barr result)
    (hnext : ∀ a, ∃ b, next (a, barr.skip n) = .ok (b, barr.skip n)) :
    ReadsExactly n barr (result >>= next) := by
  constructor
  · intro hroom
    obtain ⟨a, ha⟩ := h.reads hroom
    obtain ⟨b, hb⟩ := hnext a
    exact ⟨b, by rw [ha, ok_bind, hb]⟩
  · intro b barr' hb
    obtain ⟨⟨a, barr₁⟩, ha, hret⟩ := bind_eq_ok.mp hb
    obtain ⟨rfl, hlen⟩ := h.takes a barr₁ ha
    obtain ⟨b', hb'⟩ := hnext a
    cases hb'.symm.trans hret
    exact ⟨rfl, hlen⟩

theorem ReadsExactly.bind {next : α × Binarr → Guarded (β × Binarr)}
    (h : ReadsExactly n barr result)
    (hnext : ∀ a, ReadsExactly m (barr.skip n) (next (a, barr.skip n))) (hk : n + m = k) :
    ReadsExactly k barr (result >>= next) := by
  subst hk
  have hskip : (barr.skip n).skip m = barr.skip (n + m) := by
    simp only [Binarr.skip, Nat.add_assoc]
  constructor
  · intro hroom
    obtain ⟨a, ha⟩ := h.reads (by omega)
    obtain ⟨b, hb⟩ := (hnext a).reads (by rwa [Binarr.skip_index, Binarr.skip_buf, Nat.add_assoc])
    exact ⟨b, by rw [ha, ok_bind, hb, hskip]⟩
  · intro b barr' hb
    obtain ⟨⟨a, barr₁⟩, ha, hrest⟩ := bind_eq_ok.mp hb
    obtain ⟨rfl, -⟩ := h.takes a barr₁ ha
    obtain ⟨rfl, hlen⟩ := (hnext a).takes b barr' hrest
    rw [Binarr.skip_index, Binarr.skip_buf, Nat.add_assoc] at hlen
    exact ⟨hskip, hlen⟩

/-- A computation that begins with a read succeeds where the read does and the rest does. -/
theorem ReadsExactly.bind_ok_iff {next : α × Binarr → Guarded γ} (h : ReadsExactly n barr result)
    {P : Prop} (hnext : ∀ a, (∃ c, next (a, barr.skip n) = .ok c) ↔ P) :
    (∃ c, (result >>= next) = .ok c) ↔ barr.index + n ≤ barr.buf.length ∧ P := by
  constructor
  · intro hc
    obtain ⟨c, hc⟩ := hc
    obtain ⟨⟨a, barr₁⟩, ha, hrest⟩ := bind_eq_ok.mp hc
    obtain ⟨rfl, hlen⟩ := h.takes a barr₁ ha
    exact ⟨hlen, (hnext a).mp ⟨c, hrest⟩⟩
  · intro hroom
    obtain ⟨hlen, hP⟩ := hroom
    obtain ⟨a, ha⟩ := h.reads hlen
    obtain ⟨c, hc⟩ := (hnext a).mpr hP
    exact ⟨c, by rw [ha, ok_bind, hc]⟩

theorem ReadsExactly.then {next : α × Binarr → Guarded γ} (h : ReadsExactly n barr result)
    (hnext : ∀ a, (∃ c, next (a, barr.skip n) = .ok c) ↔
      (barr.skip n).index + m ≤ (barr.skip n).buf.length) (hk : n + m = k) :
    (∃ c, (result >>= next) = .ok c) ↔ barr.index + k ≤ barr.buf.length := by
  rw [h.bind_ok_iff hnext, Binarr.skip_index, Binarr.skip_buf]
  omega

theorem ReadsExactly.ends {next : α × Binarr → Guarded γ} (h : ReadsExactly n barr result)
    (hnext : ∀ a, ∃ c, next (a, barr.skip n) = .ok c) :
    (∃ c, (result >>= next) = .ok c) ↔ barr.index + n ≤ barr.buf.length :=
  (h.bind_ok_iff fun a => iff_true_intro (hnext a)).trans (and_iff_left trivial)

end Reading

theorem readsExactly_binarrRead (barr : Binarr) (n : Nat) :
    ReadsExactly n barr (binarrRead barr n) := by
  constructor
  · intro hroom
    refine ⟨(barr.buf.drop barr.index).take n, ?_⟩
    simp only [binarrRead, readAt, guardRange_eq_ok hroom, ok_bind, pure_eq_ok, Binarr.skip]
  · intro data barr' h
    rw [binarrRead, readAt, bind_eq_ok] at h
    obtain ⟨_, hread, hret⟩ := h
    obtain ⟨⟨⟩, hguard, -⟩ := bind_eq_ok.mp hread
    cases hret
    exact ⟨rfl, le_of_guardRange hguard⟩

theorem readsExactly_binarrReadI8 (barr : Binarr) : ReadsExactly 1 barr (binarrReadI8 barr) :=
  (readsExactly_binarrRead barr 1).last fun _ => ⟨_, rfl⟩

section Host
variable {F : Type} (host : Host F)

theorem readsExactly_binarrReadI32N (barr : Binarr) :
    ReadsExactly 4 barr (binarrReadI32N host barr) := by
  have hword : ReadsExactly 4 barr (binarrReadI32 host barr) :=
    (readsExactly_binarrRead barr 4).last fun _ => ⟨_, rfl⟩
  exact hword.last fun _ => ⟨_, rfl⟩

variable [Field F]

theorem readsExactly_binarrReadFloatN (barr : Binarr) :
    ReadsExactly 4 barr (binarrReadFloatN host barr) :=
  (readsExactly_binarrReadI32N host barr).last fun _ => ⟨_, rfl⟩

theorem readsExactly_readObj (obj : GameObj F) (barr : Binarr) :
    ReadsExactly 24 barr (readObj host obj barr) := by
  have hfloat := readsExactly_binarrReadFloatN host
  refine (hfloat barr).bind (m := 20) (fun _ => ?_) rfl
  refine (hfloat _).bind (m := 16) (fun _ => ?_) rfl
  refine (hfloat _).bind (m := 12) (fun _ => ?_) rfl
  refine (hfloat _).bind (m := 8) (fun _ => ?_) rfl
  refine (hfloat _).bind (m := 4) (fun _ => ?_) rfl
  exact (hfloat _).last fun _ => ⟨_, rfl⟩

theorem readsExactly_readPaddle (paddle : GameObj F) (barr : Binarr) :
    ReadsExactly 12 barr (readPaddle host paddle barr) := by
  have hfloat := readsExactly_binarrReadFloatN host
  refine (hfloat barr).bind (m := 8) (fun _ => ?_) rfl
  refine (hfloat _).bind (m := 4) (fun _ => ?_) rfl
  exact (hfloat _).last fun _ => ⟨_, rfl⟩

/-- The payload of a known type is read exactly if all of it is in the buffer. -/
theorem deserializeData_ok_iff {packet : Packet F} {k : CpongPacket}
    (hk : CpongPacket.ofCode packet.type = some k) (barr : Binarr) :
    (∃ r, deserializeData host packet barr = .ok r) ↔
      barr.index + payloadLength k ≤ barr.buf.length := by
  have hword := readsExactly_binarrReadI32N host
  have hfloat := readsExactly_binarrReadFloatN host
  have hobj := readsExactly_readObj host
  have hpaddle := readsExactly_readPaddle host
  unfold deserializeData
  rw [hk]
  cases k with
  | ping => exact (readsExactly_binarrReadI8 barr).ends fun _ => ⟨_, rfl⟩
  | input => exact (hword barr).ends fun _ => ⟨_, rfl⟩
  | init =>
    refine (hword barr).then (m := 96) (fun _ => ?_) rfl
    refine (hword _).then (m := 92) (fun _ => ?_) rfl
    refine (hword _).then (m := 88) (fun _ => ?_) rfl
    refine (hword _).then (m := 84) (fun _ => ?_) rfl
    refine (hword _).then (m := 80) (fun _ => ?_) rfl
    refine (hobj _ _).then (m := 56) (fun _ => ?_) rfl
    refine (hobj _ _).then (m := 32) (fun _ => ?_) rfl
    refine (hobj _ _).then (m := 8) (fun _ => ?_) rfl
    refine (hfloat _).then (m := 4) (fun _ => ?_) rfl
    exact (hfloat _).ends fun _ => ⟨_, rfl⟩
  | state =>
    refine (hpaddle _ barr).then (m := 28) (fun _ => ?_) rfl
    refine (hpaddle _ _).then (m := 16) (fun _ => ?_) rfl
    refine (hfloat _).then (m := 12) (fun _ => ?_) rfl
    refine (hfloat _).then (m := 8) (fun _ => ?_) rfl
    refine (hfloat _).then (m := 4) (fun _ => ?_) rfl
    exact (hfloat _).ends fun _ => ⟨_, rfl⟩

theorem deserializeData_inBounds (packet : Packet F) {barr : Binarr}
    (hroom : barr.index + 100 ≤ barr.buf.length) :
    ∃ r, deserializeData host packet barr = .ok r := by
  cases hk : CpongPacket.ofCode packet.type with
  | none =>
    unfold deserializeData
    rw [hk]
    exact ⟨_, rfl⟩
  | some k =>
    have hle := payloadLength_le k
    exact (deserializeData_ok_iff host hk barr).mpr (by omega)

/-- The header is read before anything else. -/
theorem packetDeserialize_header {packet : Packet F} {barr : Binarr} {r : Bool × Packet F × Binarr}
    (h : packetDeserialize host packet barr = .ok r) : packetHeaderSize ≤ barr.buf.length := by
  unfold packetDeserialize at h
  obtain ⟨⟨type, barr₁⟩, htype, h⟩ := bind_eq_ok.mp h
  obtain ⟨rfl, -⟩ := (readsExactly_binarrReadI8 _).takes _ _ htype
  obtain ⟨⟨sync, barr₂⟩, hsync, h⟩ := bind_eq_ok.mp h
  obtain ⟨rfl, -⟩ := (readsExactly_binarrReadI8 _).takes _ _ hsync
  obtain ⟨⟨size, barr₃⟩, hsize, -⟩ := bind_eq_ok.mp h
  exact ((readsExactly_binarrReadI32N host _).takes _ _ hsize).2

theorem packetDeserialize_inBounds (packet : Packet F) {barr : Binarr}
    (hroom : 106 ≤ barr.buf.length) : ∃ r, packetDeserialize host packet barr = .ok r := by
  unfold packetDeserialize
  obtain ⟨type, htype⟩ := (readsExactly_binarrReadI8 { barr with index := 0 }).reads
    (by simp only; omega)
  obtain ⟨sync, hsync⟩ := (readsExactly_binarrReadI8 ({ barr with index := 0 }.skip 1)).reads
    (by simp; omega)
  obtain ⟨size, hsize⟩ := (readsExactly_binarrReadI32N host
    (({ barr with index := 0 }.skip 1).skip 1)).reads (by simp; omega)
  simp only [htype, hsync, hsize, ok_bind]
  exact deserializeData_inBounds host _ (by simp; omega)

end Host

/-- The `packet_size` that a header announces. -/
def announcedSize (stream : List Byte) : I32 := load .big ((stream.drop 2).take 4)

def HeaderArrives (conn : Conn) : Prop :=
  arrival conn.script conn.stream.length packetHeaderSize = .complete

theorem sizeT_le_iff {b : Nat} (hb : b < 2 ^ 31) (i : I32) :
    sizeT i ≤ b ↔ 0 ≤ i.toInt ∧ i.toInt ≤ b := by
  have hwide : (i.signExtend 64).toInt = i.toInt := BitVec.toInt_signExtend_of_le (by decide)
  have hsigned := BitVec.toInt_eq_toNat_cond (i.signExtend 64)
  have hlt := (i.signExtend 64).isLt
  have hhi := BitVec.toInt_lt (x := i)
  have hlo := BitVec.le_toInt i
  rw [hwide] at hsigned
  unfold sizeT
  split at hsigned <;> omega

theorem le_of_arrival_complete {script : List RecvOutcome} {avail n : Nat}
    (h : arrival script avail n = .complete) : n ≤ avail := by
  induction script generalizing avail n with
  | nil =>
    unfold arrival at h
    by_cases h0 : n = 0
    · omega
    · rw [if_neg h0] at h
      cases h
  | cons o script ih =>
    unfold arrival at h
    by_cases h0 : n = 0
    · omega
    rw [if_neg h0] at h
    cases o with
    | data more =>
      dsimp only at h
      by_cases hgot : min (min (more + 1) n) avail = 0
      · rw [if_pos hgot] at h
        cases h
      · rw [if_neg hgot] at h
        have hrest := ih h
        omega
    | eintr => exact ih h
    | error => cases h
    | eof => cases h

theorem recvall_inBounds {off n : Nat} {buf : List Byte} (hbuf : off + n ≤ buf.length)
    (script : List RecvOutcome) (stream : List Byte) :
    recvall off n script stream buf 0 = .error .blocked ∨
      ∃ r, recvall off n script stream buf 0 = .ok r ∧ r.buf.length = buf.length := by
  have hspec := recvall_start hbuf script stream
  cases harr : arrival script stream.length n with
  | complete =>
    rw [harr] at hspec
    obtain ⟨script', hrun, _, _⟩ := hspec
    refine Or.inr ⟨_, hrun, length_overwrite ?_⟩
    rw [List.length_take]
    omega
  | eof =>
    rw [harr] at hspec
    obtain ⟨r, hrun, _, hlen⟩ := hspec
    exact Or.inr ⟨r, hrun, hlen⟩
  | error =>
    rw [harr] at hspec
    obtain ⟨r, hrun, _, hlen⟩ := hspec
    exact Or.inr ⟨r, hrun, hlen⟩
  | blocked =>
    rw [harr] at hspec
    exact Or.inl hspec

theorem recvall_outOfBounds {off n : Nat} {script : List RecvOutcome} {stream buf : List Byte}
    (hpos : 0 < n) (hbuf : buf.length < off + n) :
    recvall off n script stream buf 0 = .error .outOfBounds := by
  have hguard : guardRange buf (off + 0) (n - 0) = .error .outOfBounds := if_neg (by omega)
  refine (recvall.eq_def off n script stream buf 0).trans ((if_pos hpos).trans ?_)
  rw [hguard]
  rfl

theorem take_header {stream : List Byte} (h : packetHeaderSize ≤ stream.length) :
    ∃ type sync, stream.take packetHeaderSize =
      type :: sync :: store .big 4 (announcedSize stream) := by
  match stream, h with
  | type :: sync :: rest, h =>
    have hlen : (rest.take 4).length = 4 := by
      rw [List.length_take]
      simp only [packetHeaderSize, List.length_cons] at h
      omega
    have hsize : store .big 4 (announcedSize (type :: sync :: rest)) = rest.take 4 :=
      store_load .big rfl hlen
    exact ⟨type, sync, by rw [hsize]; rfl⟩

theorem recvPacket_noHeader {F : Type} [Field F] (host : Host F) (block : PacketBlock)
    (result : Packet F) {conn : Conn} (h : ¬ HeaderArrives conn) :
    recvPacket host block result conn ≠ .error .outOfBounds := by
  have hspec := recvall_start block.headerRoom conn.script conn.stream
  unfold HeaderArrives at h
  cases harr : arrival conn.script conn.stream.length packetHeaderSize with
  | complete => exact absurd harr h
  | blocked =>
    rw [harr] at hspec
    rw [recvPacket, binarrNew, hspec]
    intro hbad
    cases hbad
  | eof =>
    rw [harr] at hspec
    obtain ⟨r, hrun, hres, _⟩ := hspec
    rw [recvPacket_of_no_header host hres.le hrun]
    intro hbad
    cases hbad
  | error =>
    rw [harr] at hspec
    obtain ⟨r, hrun, hres, _⟩ := hspec
    rw [recvPacket_of_no_header host (by omega) hrun]
    intro hbad
    cases hbad

section Host
variable {F : Type} [Field F] (host : Host F)

theorem recvPayload_inBounds_iff {packetSize : I32} {buf : List Byte}
    (hbuf : buf.length = maxPacketSize) (result : Packet F) (conn : Conn) :
    recvPayload host packetSize buf result conn ≠ .error .outOfBounds ↔
      0 ≤ packetSize.toInt ∧ packetSize.toInt ≤ (maxPacketSize - packetHeaderSize : Nat) := by
  rw [← sizeT_le_iff (by decide), recvPayload]
  constructor
  · intro hok
    by_contra hlarge
    have hroom : buf.length < packetHeaderSize + sizeT packetSize := by
      rw [hbuf]
      unfold maxPacketSize packetHeaderSize at *
      omega
    apply hok
    rw [recvall_outOfBounds (by omega) hroom]
    rfl
  · intro hsize
    have hroom : packetHeaderSize + sizeT packetSize ≤ buf.length := by
      rw [hbuf]
      unfold maxPacketSize packetHeaderSize at *
      omega
    rcases recvall_inBounds hroom conn.script conn.stream with hrun |
      ⟨data, hrun, hlen⟩
    · rw [hrun]
      intro h
      cases h
    rw [hrun, ok_bind]
    by_cases hres : data.res ≤ 0
    · rw [if_pos hres]
      intro h
      cases h
    · rw [if_neg hres]
      have hfull : 106 ≤ (⟨data.buf, packetHeaderSize, 0⟩ : Binarr).buf.length := by
        rw [hlen, hbuf]
        decide
      obtain ⟨r, hr⟩ := packetDeserialize_inBounds host result hfull
      rw [hr]
      intro h
      cases h

theorem recvPacket_header (block : PacketBlock) (result : Packet F) {conn : Conn}
    (harrives : HeaderArrives conn) :
    ∃ buf conn', buf.length = maxPacketSize ∧ recvPacket host block result conn =
      recvPayload host (announcedSize conn.stream) buf result conn' := by
  have hblock : block.val.length = 200 := block.property
  have hspec := recvall_start block.headerRoom conn.script conn.stream
  rw [harrives] at hspec
  obtain ⟨script', hrun, _, _⟩ := hspec
  have hlen := le_of_arrival_complete harrives
  have hbuf : (overwrite block.val 0 (conn.stream.take packetHeaderSize)).length =
      maxPacketSize := by
    rw [length_overwrite (by rw [List.length_take_of_le hlen]; exact block.headerRoom), hblock]
    rfl
  obtain ⟨type, sync, hhead⟩ := take_header hlen
  rw [hhead, overwrite, List.take_zero, List.nil_append, List.cons_append,
    List.cons_append] at hbuf
  rw [Nat.sub_zero, Nat.add_zero, hhead, overwrite, List.take_zero, List.nil_append,
    List.cons_append, List.cons_append] at hrun
  exact ⟨_, _, hbuf, recvPacket_of_header host hrun⟩

/-- No byte outside the receive buffer is offered to `recv` or read by `packet_deserialize`
exactly when the announced payload fits behind the header. -/
theorem recvPacket_inBounds_iff (block : PacketBlock) (result : Packet F) (conn : Conn) :
    recvPacket host block result conn ≠ .error .outOfBounds ↔
      (HeaderArrives conn → 0 ≤ (announcedSize conn.stream).toInt ∧
        (announcedSize conn.stream).toInt ≤ (maxPacketSize - packetHeaderSize : Nat)) := by
  by_cases harrives : HeaderArrives conn
  · obtain ⟨buf, conn', hbuf, hrun⟩ := recvPacket_header host block result harrives
    rw [hrun, recvPayload_inBounds_iff host hbuf]
    constructor
    · intro hsize _
      exact hsize
    · intro hsize
      exact hsize harrives
  · constructor
    · intro _ h
      exact absurd h harrives
    · intro _
      exact recvPacket_noHeader host block result harrives

end Host

/-- A `PACKET_PING` whose header announces 1000 bytes, and the 1000 bytes. -/
def oversizedPing : List Byte := [0, 0, 0, 0, 3, 232] ++ List.replicate 1000 0

theorem recvPacket_oversizedPing :
    recvPacket (⟨.little, fun _ => 0⟩ : Host ℚ) ⟨List.replicate 200 0, List.length_replicate⟩
      Packet.zero ⟨oversizedPing, [.data 5, .data 999]⟩ = .error .outOfBounds := by
  have harrives : HeaderArrives ⟨oversizedPing, [.data 5, .data 999]⟩ := by
    rw [HeaderArrives, oversizedPing, List.length_append, List.length_replicate]
    rfl
  have hsize : announcedSize oversizedPing = 1000 := rfl
  obtain ⟨buf, conn', hbuf, hrun⟩ := recvPacket_header (⟨.little, fun _ => 0⟩ : Host ℚ)
    ⟨List.replicate 200 0, List.length_replicate⟩ Packet.zero harrives
  by_contra hok
  rw [hrun] at hok
  have hfits := (recvPayload_inBounds_iff _ hbuf _ _).mp hok
  rw [hsize] at hfits
  exact absurd hfits.2 (by decide)

end CPong
