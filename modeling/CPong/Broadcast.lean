import CPong.Disconnection
import CPong.Framing

/-!
# Broadcasts

`server_broadcast` walks the queue of clients and sends the packet to each. A send that fails
takes its client out of the queue, and the walk goes on from the node that is gone.
-/

namespace CPong.Matchmaking

set_option autoImplicit false

open Lib.Pointers
open Lib.Chain
open Lib.Words

/-- A call of `sendall`, by the client and the bytes. -/
abbrev Attempt := Client × List Byte

/-- The loop of `server_broadcast`; `sent` says whose send succeeds. The fuel is the number of
nodes that the queue counts. -/
def broadcastNodes (barr : Binarr) (sent : Client → Bool) :
    Nat → Option Ptr → MmServer → Call (List Attempt × MmServer)
  | _, none, s => .ok ([], s)
  | 0, some _, _ => .error .endless
  | n + 1, some p, s => do
    let node ← deref s.clients.nodes (some p)
    let client ← deref s.clientAt node.data
    let s ← serverSend (sent client) client s
    -- `p = p->next` reads the node after the send.
    let node ← deref s.clients.nodes (some p)
    let (attempts, s) ← broadcastNodes barr sent n node.next s
    return ((client, barr.buf.take barr.size) :: attempts, s)

section Broadcast
variable {F : Type} [Field F] [LinearOrder F] [FloorRing F] (host : Host F)

def serverBroadcast (block : PacketBlock) (packet : Packet F) (sent : Client → Bool)
    (s : MmServer) : Call (Int × List Attempt × MmServer) :=
  match packetSerialize host (binarrNew block) packet with
  | .error _ => .error .segfault
  | .ok (false, _) => .ok (-1, [], s)
  | .ok (true, barr) => do
    let (attempts, s) ← broadcastNodes barr sent s.clients.size s.clients.head s
    return (0, attempts, s)

end Broadcast

/-- The clients that wait, with their records; no two have one id. -/
structure Clients (s : MmServer) (waiting : List Ptr) : Prop where
  queue : Queued s.clients waiting
  live : ∀ p ∈ waiting, (s.clientAt p).isSome
  ids : (waiting.map fun p => (s.clientAt p).map Client.id).Nodup

def sentTo (s : MmServer) (sent : Client → Bool) (p : Ptr) : Bool := (s.clientAt p).all sent

/-- Every client is sent the bytes, once and in the order of the queue, and those whose send
succeeds stay in it. -/
def Broadcasts (bytes : List Byte) (sent : Client → Bool) (s : MmServer) (waiting : List Ptr)
    (call : Call (Int × List Attempt × MmServer)) : Prop :=
  ∃ res attempts t, call = .ok (res, attempts, t) ∧
    attempts = (waiting.filterMap s.clientAt).map (fun client => (client, bytes)) ∧
    Queued t.clients (waiting.filter (sentTo s sent)) ∧
    ∀ p ∈ waiting.filter (sentTo s sent), t.clientAt p = s.clientAt p

section Walk
variable {s : MmServer} {waiting xs ys : List Ptr} {x : Ptr} {client : Client}

theorem Clients.eq_of_id (h : Clients s waiting) {p q : Ptr} (hp : p ∈ waiting) (hq : q ∈ waiting)
    {c d : Client} (hc : s.clientAt p = some c) (hd : s.clientAt q = some d) (hid : c.id = d.id) :
    p = q := by
  apply List.inj_on_of_nodup_map h.ids hp hq
  rw [hc, hd, Option.map_some, Option.map_some, hid]

/-- A send that fails frees the node of its client. -/
theorem serverHandleDisconnection_gone (h : Clients s waiting) (hfree : s.clients.mutex = false)
    {cells : List (Ptr × Option Ptr)} (hcells : Holds s.clients cells)
    (hdata : cells.map Prod.snd = waiting.map some) {c : Ptr × Option Ptr} (hc : c ∈ cells)
    (hcx : c.2 = some x) (hx : s.clientAt x = some client) :
    ∃ t, serverHandleDisconnection client s = .ok t ∧ t.clients.nodes c.1 = none := by
  have hxs : x ∈ waiting := by
    have hmem : some x ∈ cells.map Prod.snd := hcx ▸ List.mem_map_of_mem hc
    rwa [hdata, List.mem_map_of_injective (Option.some_injective _)] at hmem
  unfold serverHandleDisconnection
  rw [CPong.TsQueue.lock_free hfree, ok_bind]
  rcases findNode_linked (q := { s.clients with mutex := true }) hcells.linked hdata h.live
    (Nat.le_of_eq hcells.size.symm) client.id with
    ⟨-, hothers⟩ | ⟨l, d, r, xs, y, ys, found, rfl, hsplit, -, hd, hy, hid, hsome⟩
  · exact absurd rfl (hothers x hxs client hx)
  · obtain rfl : y = x := by
      apply h.eq_of_id ?_ hxs hy hx hid
      simp [hsplit]
    obtain rfl : d = c := by
      have hnodup : ((l ++ d :: r).map Prod.snd).Nodup := by
        rw [hdata]
        exact (List.Nodup.of_map _ h.ids).map (Option.some_injective _)
      exact List.inj_on_of_nodup_map hnodup (by simp) hc (hd.trans hcx.symm)
    rw [← hcells.head] at hsome
    obtain ⟨q, hremove, -, -, hgone⟩ := tsQueueRemoveNolock_holds (hcells.withMutex true)
    have hnode := (linked_append.mp hcells.linked).2.1
    refine ⟨{ s.close client.fd with
      clients := q.unlock, clientAt := Function.update s.clientAt y none }, ?_, hgone⟩
    simp only [hsome, ok_bind, MmServer.close, deref_eq hnode, hd, free_eq hy, hremove, pure_eq_ok]

/-- The walk from any node on: it comes to the end if every send on the way succeeds, and reads a
freed node otherwise. -/
theorem broadcastNodes_outcome (barr : Binarr) (sent : Client → Bool) (h : Clients s waiting)
    (hfree : s.clients.mutex = false)
    {l r : List (Ptr × Option Ptr)} (hcells : Holds s.clients (l ++ r))
    (hdata : (l ++ r).map Prod.snd = waiting.map some) (hys : r.map Prod.snd = ys.map some)
    {n : Nat} (hn : r.length ≤ n) :
    (ys.all (sentTo s sent) = true ∧ broadcastNodes barr sent n (firstOr none r) s =
        .ok ((ys.filterMap s.clientAt).map (fun client => (client, barr.buf.take barr.size)), s)) ∨
      (ys.all (sentTo s sent) = false ∧
        broadcastNodes barr sent n (firstOr none r) s = .error .segfault) := by
  induction r generalizing l ys n with
  | nil =>
    obtain rfl : ys = [] := by simpa using hys.symm
    exact Or.inl ⟨rfl, by cases n <;> rfl⟩
  | cons c r ih =>
    cases ys with
    | nil => simp at hys
    | cons x ys =>
      simp only [List.map_cons, List.cons.injEq] at hys
      obtain ⟨n, rfl⟩ : ∃ m, n = m + 1 := ⟨n - 1, by simp at hn; omega⟩
      have hx : x ∈ waiting := by
        have hmem : some x ∈ (l ++ c :: r).map Prod.snd := by simp [hys.1]
        rwa [hdata, List.mem_map_of_injective (Option.some_injective _)] at hmem
      obtain ⟨client, hclient⟩ := Option.isSome_iff_exists.mp (h.live x hx)
      have hnode := (linked_append.mp hcells.linked).2.1
      rw [firstOr, broadcastNodes, deref_eq hnode, ok_bind, hys.1, deref_eq hclient, ok_bind,
        List.all_cons, sentTo, hclient, Option.all_some]
      cases hsent : sent client with
      | false =>
        right
        obtain ⟨t, hgone, hnone⟩ := serverHandleDisconnection_gone h hfree hcells hdata
          (c := c) (by simp) hys.1 hclient
        have hread : deref t.clients.nodes (some c.1) = .error .segfault := by simp [deref, hnone]
        refine ⟨rfl, ?_⟩
        rw [serverSend, if_neg Bool.false_ne_true, hgone, ok_bind, hread, error_bind]
      | true =>
        rw [Bool.true_and, serverSend, if_pos rfl, ok_bind, deref_eq hnode, ok_bind,
          List.filterMap_cons_some hclient, List.map_cons]
        have hassoc : l ++ [c] ++ r = l ++ c :: r := by simp
        rcases ih (l := l ++ [c]) (by rwa [hassoc]) (by rwa [hassoc]) hys.2
          (Nat.le_of_succ_le_succ hn) with ⟨hall, hrest⟩ | ⟨hall, hrest⟩
        · refine Or.inl ⟨hall, ?_⟩
          rw [hrest]
          rfl
        · refine Or.inr ⟨hall, ?_⟩
          rw [hrest, error_bind]

end Walk

section Broadcast
variable {F : Type} [Field F] [LinearOrder F] [FloorRing F] (host : Host F) {s : MmServer}
  {waiting : List Ptr}

/-- A packet of a known type is serialised, and its bytes go to the clients of the queue. -/
theorem serverBroadcast_eq (block : PacketBlock) {packet : Packet F} {k : CpongPacket}
    (hk : CpongPacket.ofCode packet.type = some k) (sent : Client → Bool) :
    ∃ barr, barr.buf.take barr.size = packetFrame host packet ∧
      serverBroadcast host block packet sent s = do
        let (attempts, s) ← broadcastNodes barr sent s.clients.size s.clients.head s
        return (0, attempts, s) := by
  refine ⟨_, ?_, by rw [serverBroadcast, packetSerialize_new host hk (block.packetRoom k)]⟩
  rw [filled_buf, filled_size, List.take_left, packetFrame, hk]

/-- The broadcast serves its clients exactly if no send of it fails. -/
theorem server_broadcast_iff (h : Clients s waiting) (hfree : s.clients.mutex = false)
    (block : PacketBlock) {packet : Packet F} {k : CpongPacket}
    (hk : CpongPacket.ofCode packet.type = some k) (sent : Client → Bool) :
    Broadcasts (packetFrame host packet) sent s waiting
        (serverBroadcast host block packet sent s) ↔
      ∀ p ∈ waiting, ∀ client, s.clientAt p = some client → sent client = true := by
  have hsent : (∀ p ∈ waiting, ∀ client, s.clientAt p = some client → sent client = true) ↔
      waiting.all (sentTo s sent) = true := by
    simp only [List.all_eq_true, sentTo, Option.all_eq_true]
  rw [hsent]
  obtain ⟨barr, hbytes, heq⟩ := serverBroadcast_eq (s := s) host block hk sent
  obtain ⟨cells, hcells, hdata⟩ := h.queue
  rw [heq, hcells.head, hcells.size]
  rcases broadcastNodes_outcome barr sent (l := []) h hfree hcells hdata hdata
    (Nat.le_refl _) with ⟨hall, hwalk⟩ | ⟨hall, hwalk⟩
  · refine iff_of_true ?_ hall
    have hkept : waiting.filter (sentTo s sent) = waiting :=
      List.filter_eq_self.mpr (List.all_eq_true.mp hall)
    refine ⟨0, _, s, by rw [hwalk]; rfl, by rw [hbytes], ?_⟩
    rw [hkept]
    exact ⟨h.queue, fun _ _ => rfl⟩
  · rw [hwalk, hall]
    refine iff_of_false ?_ Bool.false_ne_true
    rintro ⟨res, attempts, t, hok, -⟩
    cases hok

end Broadcast

/-- Two clients have connected. -/
def twoClients : MmServer :=
  ((acceptClient 4 (some 100) (some 200) mmServerNew).bind
    (acceptClient 5 (some 101) (some 201))).toOption.getD mmServerNew

theorem twoClients_clients : Clients twoClients [100, 101] := by
  refine ⟨⟨[(200, some 100), (201, some 101)], ?_, rfl⟩, by decide, by decide⟩
  exact ⟨⟨rfl, rfl, trivial⟩, by decide, rfl, rfl, rfl⟩

theorem server_broadcast_twoClients :
    Broadcasts (packetFrame (⟨.little, fun _ => 0⟩ : Host ℚ) Packet.zero) (fun _ => true)
      twoClients [100, 101]
      (serverBroadcast (⟨.little, fun _ => 0⟩ : Host ℚ) (uniformBlock 0)
        Packet.zero (fun _ => true) twoClients) := by
  apply (server_broadcast_iff _ twoClients_clients rfl _ (k := .ping) rfl _).mpr
  intro p _ client _
  rfl

/-- The send to the first of the two fails. -/
theorem server_broadcast_firstFails :
    Clients twoClients [100, 101] ∧ twoClients.clients.mutex = false ∧
      serverBroadcast (⟨.little, fun _ => 0⟩ : Host ℚ) (uniformBlock 0)
        Packet.zero (fun client => client.id ≠ 4) twoClients = .error .segfault ∧
      ¬ Broadcasts (packetFrame (⟨.little, fun _ => 0⟩ : Host ℚ) Packet.zero)
        (fun client => client.id ≠ 4) twoClients [100, 101]
        (serverBroadcast (⟨.little, fun _ => 0⟩ : Host ℚ) (uniformBlock 0)
          Packet.zero (fun client => client.id ≠ 4) twoClients) := by
  have hping : CpongPacket.ofCode (Packet.zero (F := ℚ)).type = some .ping := rfl
  obtain ⟨barr, -, heq⟩ := serverBroadcast_eq (s := twoClients) (⟨.little, fun _ => 0⟩ : Host ℚ)
    (uniformBlock 0) hping (fun client => client.id ≠ 4)
  have hcrash : broadcastNodes barr (fun client => client.id ≠ 4) twoClients.clients.size
      twoClients.clients.head twoClients = .error .segfault := by rfl
  rw [hcrash, error_bind] at heq
  refine ⟨twoClients_clients, rfl, heq, ?_⟩
  rw [heq]
  rintro ⟨res, attempts, t, hok, -⟩
  cases hok

end CPong.Matchmaking
