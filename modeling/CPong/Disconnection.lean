import CPong.Lobby

/-!
# Clients whose send fails

A failed `server_send` calls `server_handle_disconnection`, which looks for the client in the
queue of those that wait. Every client that the server sends to has left that queue for a room.
-/

namespace CPong.Matchmaking

set_option autoImplicit false

open Lib.Pointers
open Lib.System

def MmServer.waiting (s : MmServer) : List (Option Ptr) := s.clients.items.getD []

def MmServer.placed (s : MmServer) : List (Option Ptr) :=
  (s.rooms.items.getD []).flatMap fun room => ((room.bind s.roomAt).map Room.clients).getD []

/-- `server_send`, by whether `sendall` succeeds. -/
def serverSend (sent : Bool) (client : Client) (s : MmServer) : Call MmServer :=
  if sent then .ok s else serverHandleDisconnection client s

/-- `failed` lists the connections that a send has failed on. -/
structure SendingState where
  lobby : LobbyState
  failed : List Nat

abbrev SendingState.server (s : SendingState) : MmServer := s.lobby.server

inductive SendingStep where
  | lobby (l : LobbyStep)
  | send (client : Ptr) (sent : Bool)
deriving DecidableEq, Repr

def sendingStart : SendingState := ⟨lobbyStart, []⟩

/-- A failing send that does not return is no step: `server_handle_disconnection` blocks for good on
a mutex that a matcher has left held. -/
def sendingStep (s : SendingState) : SendingStep → Option SendingState
  | .lobby l => do
    let lobby ← lobbyStep s.lobby l
    return { s with lobby := lobby }
  | .send p sent => do
    guard (some p ∈ s.server.waiting ++ s.server.placed)
    let client ← s.server.clientAt p
    let server ← (serverSend sent client s.server).toOption
    let failed := if sent then [] else (s.server.fds client.fd).toList
    return { lobby := { s.lobby with server := server }, failed := s.failed ++ failed }

/-- A send that fails is one to a client that still waits. -/
def ToWaiting (s : SendingState) : SendingStep → Prop
  | .send p false => some p ∈ s.server.waiting
  | _ => True

instance (s : SendingState) : (l : SendingStep) → Decidable (ToWaiting s l)
  | .send p false => inferInstanceAs (Decidable (some p ∈ s.server.waiting))
  | .send _ true => isTrue trivial
  | .lobby _ => isTrue trivial

/-- Every client has a record of its own and a descriptor of its own, which is open. -/
structure Records (s : MmServer) (members : List Ptr) : Prop where
  nodup : members.Nodup
  records : ∀ p ∈ members, ∃ fd n, s.clientAt p = some ⟨fd, fd⟩ ∧ s.fds fd = some n
  own : ∀ p ∈ members, ∀ q ∈ members, s.clientAt p = s.clientAt q → p = q
  numbers : ∀ fd fd' n, s.fds fd = some n → s.fds fd' = some n → fd = fd'
  fresh : ∀ fd n, s.fds fd = some n → n < s.accepted

section Records
variable {s t : MmServer} {members : List Ptr} {p x : Ptr} {connfd : Int}

theorem Records.new : Records mmServerNew [] := by
  refine ⟨List.nodup_nil, ?_, ?_, ?_, ?_⟩
  · intro p hp
    cases hp
  · intro p hp
    cases hp
  · intro fd fd' n hfd
    cases hfd
  · intro fd n hfd
    cases hfd

/-- A descriptor opened under the next number keeps the numbers apart. -/
theorem numbers_update {fds : Int → Option Nat} {next : Nat} (connfd : Int)
    (numbers : ∀ fd fd' n, fds fd = some n → fds fd' = some n → fd = fd')
    (fresh : ∀ fd n, fds fd = some n → n < next) :
    (∀ fd fd' n, Function.update fds connfd (some next) fd = some n →
        Function.update fds connfd (some next) fd' = some n → fd = fd') ∧
      ∀ fd n, Function.update fds connfd (some next) fd = some n → n < next + 1 := by
  have hmine {fd : Int} {n : Nat}
      (hopen : Function.update fds connfd (some next) fd = some n) :
      fd = connfd ∧ n = next ∨ fd ≠ connfd ∧ fds fd = some n := by
    by_cases hfd : fd = connfd
    · rw [hfd, Function.update_self, Option.some.injEq] at hopen
      exact Or.inl ⟨hfd, hopen.symm⟩
    · rw [Function.update_of_ne hfd] at hopen
      exact Or.inr ⟨hfd, hopen⟩
  constructor
  · intro fd fd' n hopen hopen'
    rcases hmine hopen with ⟨hfd, hn⟩ | ⟨-, hold⟩
    · rcases hmine hopen' with ⟨hfd', -⟩ | ⟨-, hold'⟩
      · rw [hfd, hfd']
      · have hlt := fresh fd' n hold'
        omega
    · rcases hmine hopen' with ⟨-, hn'⟩ | ⟨-, hold'⟩
      · have hlt := fresh fd n hold
        omega
      · exact numbers fd fd' n hold hold'
  · intro fd n hopen
    rcases hmine hopen with ⟨-, hn⟩ | ⟨-, hold⟩
    · omega
    · have hlt := fresh fd n hold
      omega

/-- A new client comes with a descriptor that was not open. -/
theorem Records.accept (h : Records s members) (hnew : s.clientAt p = none)
    (hfd : s.fds connfd = none)
    (hclientAt : t.clientAt = Function.update s.clientAt p (some ⟨connfd, connfd⟩))
    (hfds : t.fds = Function.update s.fds connfd (some s.accepted))
    (haccepted : t.accepted = s.accepted + 1) : Records t (members ++ [p]) := by
  have hne : ∀ q ∈ members, q ≠ p := by
    rintro q hq rfl
    obtain ⟨fd, n, hrecord, -⟩ := h.records q hq
    rw [hnew] at hrecord
    cases hrecord
  have hfdne {fd : Int} {n : Nat} (hopen : s.fds fd = some n) : fd ≠ connfd := by
    rintro rfl
    rw [hfd] at hopen
    cases hopen
  have hkept (q : Ptr) (hq : q ∈ members) : t.clientAt q = s.clientAt q := by
    rw [hclientAt, Function.update_of_ne (hne q hq)]
  have hmine : t.clientAt p = some ⟨connfd, connfd⟩ := by rw [hclientAt, Function.update_self]
  have hother (q : Ptr) (hq : q ∈ members) : t.clientAt q ≠ t.clientAt p := by
    obtain ⟨fd, n, hrecord, hopen⟩ := h.records q hq
    rw [hkept q hq, hmine, hrecord]
    intro heq
    exact hfdne hopen (congrArg Client.fd (Option.some.inj heq))
  refine ⟨?_, ?_, ?_, ?_, ?_⟩
  · rw [List.nodup_append_comm]
    exact List.nodup_cons.mpr ⟨fun hp => hne p hp rfl, h.nodup⟩
  · intro q hq
    rcases List.mem_append.mp hq with hq | hq
    · obtain ⟨fd, n, hrecord, hopen⟩ := h.records q hq
      refine ⟨fd, n, (hkept q hq).trans hrecord, ?_⟩
      rw [hfds, Function.update_of_ne (hfdne hopen), hopen]
    · obtain rfl := List.mem_singleton.mp hq
      exact ⟨connfd, s.accepted, hmine, by rw [hfds, Function.update_self]⟩
  · intro q hq r hr heq
    rcases List.mem_append.mp hq with hold | hlast
    · rcases List.mem_append.mp hr with hold' | hlast'
      · rw [hkept q hold, hkept r hold'] at heq
        exact h.own q hold r hold' heq
      · rw [List.mem_singleton.mp hlast'] at heq
        exact absurd heq (hother q hold)
    · rw [List.mem_singleton.mp hlast] at heq ⊢
      rcases List.mem_append.mp hr with hold' | hlast'
      · exact absurd heq.symm (hother r hold')
      · exact (List.mem_singleton.mp hlast').symm
  · rw [hfds]
    exact (numbers_update connfd h.numbers h.fresh).1
  · rw [hfds, haccepted]
    exact (numbers_update connfd h.numbers h.fresh).2

theorem Records.same {members' : List Ptr} (h : Records s members)
    (hmembers : members' = members) (hclientAt : t.clientAt = s.clientAt) (hfds : t.fds = s.fds)
    (haccepted : t.accepted = s.accepted) : Records t members' := by
  subst hmembers
  refine ⟨h.nodup, ?_, ?_, ?_, ?_⟩
  · rw [hclientAt, hfds]
    exact h.records
  · rw [hclientAt]
    exact h.own
  · rw [hfds]
    exact h.numbers
  · rw [hfds, haccepted]
    exact h.fresh

/-- A client goes, and its record and its descriptor with it. -/
theorem Records.release {l r : List Ptr} (h : Records s (l ++ x :: r)) {fd : Int}
    (hx : s.clientAt x = some ⟨fd, fd⟩)
    (hclientAt : t.clientAt = Function.update s.clientAt x none)
    (hfds : t.fds = Function.update s.fds fd none) (haccepted : t.accepted = s.accepted) :
    Records t (l ++ r) := by
  have hx' : x ∈ l ++ x :: r := by simp
  have hsub : ∀ q ∈ l ++ r, q ∈ l ++ x :: r := by
    intro q hq
    simp only [List.mem_append, List.mem_cons] at hq ⊢
    tauto
  have hnodup := h.nodup
  rw [List.nodup_middle, List.nodup_cons] at hnodup
  have hne (q : Ptr) (hq : q ∈ l ++ r) : q ≠ x := by
    rintro rfl
    exact hnodup.1 hq
  have hkept (q : Ptr) (hq : q ∈ l ++ r) : t.clientAt q = s.clientAt q := by
    rw [hclientAt, Function.update_of_ne (hne q hq)]
  have hopen {fd' : Int} {n : Nat} (hn : t.fds fd' = some n) : s.fds fd' = some n := by
    rw [hfds] at hn
    by_cases hfd : fd' = fd
    · rw [hfd, Function.update_self] at hn
      cases hn
    · rwa [Function.update_of_ne hfd] at hn
  refine ⟨hnodup.2, ?_, ?_, ?_, ?_⟩
  · intro q hq
    obtain ⟨fd', n, hrecord, hn⟩ := h.records q (hsub q hq)
    refine ⟨fd', n, (hkept q hq).trans hrecord, ?_⟩
    have hfd : fd' ≠ fd := by
      rintro rfl
      exact hne q hq (h.own q (hsub q hq) x hx' (hrecord.trans hx.symm))
    rw [hfds, Function.update_of_ne hfd, hn]
  · intro q hq r' hr heq
    rw [hkept q hq, hkept r' hr] at heq
    exact h.own q (hsub q hq) r' (hsub r' hr) heq
  · intro fd₁ fd₂ n h₁ h₂
    exact h.numbers fd₁ fd₂ n (hopen h₁) (hopen h₂)
  · intro fd' n hn
    rw [haccepted]
    exact h.fresh fd' n (hopen hn)

end Records

/-- The lobby between two steps, with the records of its clients. -/
structure SendInv (s : LobbyState) (rooms : List (Ptr × List Ptr)) (waiting : List Ptr) : Prop
    extends LobbyHolding s rooms waiting where
  records : Records s.server (rooms.flatMap Prod.snd ++ waiting)

section Step
variable {s t : LobbyState} {rooms : List (Ptr × List Ptr)} {waiting : List Ptr} {p : Ptr}

theorem SendInv.lobby (h : SendInv s rooms waiting) {l : LobbyStep}
    (hst : lobbyStep s l = some t) : ∃ rooms' waiting', SendInv t rooms' waiting' := by
  obtain ⟨rooms', waiting', hmove, hnext⟩ := h.toLobbyHolding.next hst
  refine ⟨rooms', waiting', hnext, ?_⟩
  generalize acceptedClients [l] = new at hmove
  generalize t.server = server at hmove
  cases hmove with
  | idle => exact h.records
  | accepted hnew hfd hclientAt hfds haccepted =>
    rw [← List.append_assoc]
    exact h.records.accept hnew hfd hclientAt hfds haccepted
  | matched hsplit hclientAt hfds haccepted =>
    refine h.records.same ?_ hclientAt hfds haccepted
    rw [hsplit, List.flatMap_append, List.append_assoc]

/-- A failed send releases a client that waits, and does nothing for one in a room. -/
inductive FailedSend (s : LobbyState) (rooms : List (Ptr × List Ptr)) (waiting : List Ptr)
    (p : Ptr) (client : Client) : Call MmServer → Prop where
  | released {t : MmServer} {xs ys : List Ptr} (hsplit : waiting = xs ++ p :: ys)
      (hinv : SendInv { s with server := t } rooms (xs ++ ys))
      (hclosed : t.closed = s.server.closed ++ [client.fd])
      (hfds : t.fds = Function.update s.server.fds client.fd none)
      (hclientAt : t.clientAt = Function.update s.server.clientAt p none)
      (haccepted : t.accepted = s.server.accepted) : FailedSend s rooms waiting p client (.ok t)
  | unknown (hplaced : p ∉ waiting) : FailedSend s rooms waiting p client (.ok s.server)
  | held (e : Stop) : FailedSend s rooms waiting p client (.error e)

theorem SendInv.failedSend (h : SendInv s rooms waiting)
    (hp : p ∈ rooms.flatMap Prod.snd ++ waiting) {client : Client}
    (hclient : s.server.clientAt p = some client) :
    FailedSend s rooms waiting p client (serverHandleDisconnection client s.server) := by
  by_cases hret : s.matcher = .returned
  · have hheld : serverHandleDisconnection client s.server = .error .deadlock := by
      rw [serverHandleDisconnection, TsQueue.lock, h.mutex.mpr hret]
      rfl
    rw [hheld]
    exact .held _
  have hfree := h.free hret
  have hout := serverHandleDisconnection_outcome h.holding hfree client
  generalize serverHandleDisconnection client s.server = call at hout
  cases hout with
  | unknown hothers =>
    refine .unknown ?_
    intro hwaits
    exact hothers p hwaits client hclient rfl
  | @removed xs ys x c q hsplit hx hid hqueue hmutex =>
    have hxmem : x ∈ rooms.flatMap Prod.snd ++ waiting := by simp [hsplit]
    obtain ⟨fd, n, hrecord, hopen⟩ := h.records.records x hxmem
    obtain ⟨fd', n', hrecord', hopen'⟩ := h.records.records p hp
    obtain rfl := Option.some.inj (hx.symm.trans hrecord)
    obtain rfl := Option.some.inj (hclient.symm.trans hrecord')
    obtain rfl : fd = fd' := hid
    obtain rfl : x = p := h.records.own x hxmem p hp (hx.trans hclient.symm)
    subst hsplit
    have hrecords := h.records
    rw [← List.append_assoc] at hrecords
    have hrest : Records { s.server.close fd with
        clients := q, clientAt := Function.update s.server.clientAt x none }
        (rooms.flatMap Prod.snd ++ (xs ++ ys)) := by
      rw [← List.append_assoc]
      exact hrecords.release hx rfl rfl rfl
    refine .released rfl ⟨⟨⟨hqueue, h.holding.roomQueue, h.holding.placed, ?_⟩, ?_⟩, hrest⟩
      rfl rfl rfl rfl
    · intro a ha
      obtain ⟨fd', n', hrecord', -⟩ := hrest.records a ha
      exact Option.isSome_iff_exists.mpr ⟨_, hrecord'⟩
    · change q.mutex = true ↔ _
      rw [hmutex]
      exact ⟨fun hno => absurd hno Bool.false_ne_true, fun hno => absurd hno hret⟩

end Step

theorem Holding.waiting_eq {s : MmServer} {rooms : List (Ptr × List Ptr)} {waiting : List Ptr}
    (h : Holding s rooms waiting) : s.waiting = waiting.map some := by
  rw [MmServer.waiting, h.queue.items, Option.getD_some]

theorem Holding.placed_eq {s : MmServer} {rooms : List (Ptr × List Ptr)} {waiting : List Ptr}
    (h : Holding s rooms waiting) : s.placed = (rooms.flatMap Prod.snd).map some := by
  rw [MmServer.placed, h.roomQueue.items, Option.getD_some, List.map_map, List.flatMap_map,
    List.map_flatMap]
  apply List.flatMap_congr
  intro x hx
  obtain ⟨-, room, hroom, hclients⟩ := h.placed x hx
  simp [hroom, hclients]

section Sending
variable {s t : SendingState} {rooms : List (Ptr × List Ptr)} {waiting : List Ptr} {p : Ptr}

/-- What one step may do. -/
inductive SendingMove (s : SendingState) : SendingStep → SendingState → Prop
  | lobby {l : LobbyStep} {lobby : LobbyState} (hlobby : lobbyStep s.lobby l = some lobby) :
      SendingMove s (.lobby l) { s with lobby := lobby }
  | sent {p : Ptr} : SendingMove s (.send p true) s
  | failed {p : Ptr} {client : Client} {server : MmServer}
      (hmem : some p ∈ s.server.waiting ++ s.server.placed)
      (hclient : s.server.clientAt p = some client)
      (hcall : serverHandleDisconnection client s.server = .ok server) :
      SendingMove s (.send p false)
        { lobby := { s.lobby with server := server },
          failed := s.failed ++ (s.server.fds client.fd).toList }

theorem sendingStep_cases {l : SendingStep} (hst : sendingStep s l = some t) :
    SendingMove s l t := by
  cases l with
  | lobby l =>
    obtain ⟨lobby, hlobby, hres⟩ := Option.bind_eq_some_iff.mp hst
    cases hres
    exact .lobby hlobby
  | send p sent =>
    simp only [sendingStep, Option.bind_eq_bind, Option.bind_eq_some_iff, Option.guard_eq_some',
      exists_const, Option.pure_def, Option.some.injEq] at hst
    obtain ⟨hmem, client, hclient, server, hok, rfl⟩ := hst
    cases sent with
    | true =>
      cases hok
      rw [if_pos rfl, List.append_nil]
      exact .sent
    | false =>
      change (serverHandleDisconnection client s.server).toOption = some server at hok
      cases hcall : serverHandleDisconnection client s.server with
      | error e =>
        rw [hcall] at hok
        cases hok
      | ok server' =>
        rw [hcall] at hok
        cases hok
        exact .failed hmem hclient hcall

/-- What a failed send comes to in the whole system. -/
theorem SendInv.send_false (h : SendInv s.lobby rooms waiting)
    (hst : sendingStep s (.send p false) = some t) :
    ∃ client, s.server.clientAt p = some client ∧
      t.failed = s.failed ++ (s.server.fds client.fd).toList ∧
      t.lobby = { s.lobby with server := t.server } ∧
      FailedSend s.lobby rooms waiting p client (.ok t.server) := by
  cases sendingStep_cases hst with
  | @failed _ client server hmem hclient hcall =>
    refine ⟨client, hclient, rfl, rfl, ?_⟩
    have hp : p ∈ rooms.flatMap Prod.snd ++ waiting := by
      rw [h.holding.waiting_eq, h.holding.placed_eq, ← List.map_append, List.mem_map_of_injective
        (Option.some_injective _)] at hmem
      simp only [List.mem_append] at hmem ⊢
      exact hmem.symm
    have hout := h.failedSend hp hclient
    rwa [hcall] at hout

theorem SendInv.next (h : ∃ rooms waiting, SendInv s.lobby rooms waiting) {l : SendingStep}
    (hst : sendingStep s l = some t) : ∃ rooms waiting, SendInv t.lobby rooms waiting := by
  obtain ⟨rooms, waiting, h⟩ := h
  cases sendingStep_cases hst with
  | lobby hlobby => exact h.lobby hlobby
  | sent => exact ⟨rooms, waiting, h⟩
  | @failed p client server hmem hclient hcall =>
    obtain ⟨_, -, -, -, hout⟩ := h.send_false hst
    change FailedSend _ _ _ _ _ (.ok server) at hout
    cases hout with
    | released hsplit hinv hclosed hfds hclientAt haccepted => exact ⟨rooms, _, hinv⟩
    | unknown hplaced => exact ⟨rooms, waiting, h⟩

/-- The connections that a send has failed on are closed. -/
def FailedClosed (s : SendingState) : Prop :=
  ∀ n ∈ s.failed, n < s.server.accepted ∧ ∀ fd, s.server.fds fd ≠ some n

theorem FailedClosed.move {rooms' : List (Ptr × List Ptr)} {waiting' : List Ptr}
    {new : List (Ptr × Int)} (h : FailedClosed s)
    (hmove : ServerMove s.server rooms waiting new t.server rooms' waiting')
    (hfailed : t.failed = s.failed) : FailedClosed t := by
  unfold FailedClosed
  rw [hfailed]
  generalize t.server = server at hmove
  cases hmove with
  | idle => exact h
  | @accepted p connfd server hnew hfd hclientAt hfds haccepted =>
    intro n hn
    obtain ⟨hlt, hclosed⟩ := h n hn
    refine ⟨by omega, ?_⟩
    intro fd
    rw [hfds]
    by_cases heq : fd = connfd
    · rw [heq, Function.update_self, ne_eq, Option.some.injEq]
      omega
    · rw [Function.update_of_ne heq]
      exact hclosed fd
  | matched hsplit hclientAt hfds haccepted =>
    rw [hfds, haccepted]
    exact h

/-- A failed send to a client that waits closes its connection. -/
theorem FailedClosed.release {fd : Int} {members : List Ptr} (h : FailedClosed s)
    (hrecords : Records s.server members) (hfailed : t.failed = s.failed ++ (s.server.fds fd).toList)
    (hfds : t.server.fds = Function.update s.server.fds fd none)
    (haccepted : t.server.accepted = s.server.accepted) : FailedClosed t := by
  intro n hn
  rw [hfailed] at hn
  rw [haccepted, hfds]
  rcases List.mem_append.mp hn with hn | hn
  · obtain ⟨hlt, hnone⟩ := h n hn
    refine ⟨hlt, ?_⟩
    intro fd'
    by_cases heq : fd' = fd
    · rw [heq, Function.update_self]
      simp
    · rw [Function.update_of_ne heq]
      exact hnone fd'
  · have hopen : s.server.fds fd = some n := by simpa using hn
    refine ⟨hrecords.fresh _ n hopen, ?_⟩
    intro fd' hfd
    by_cases heq : fd' = fd
    · rw [heq, Function.update_self] at hfd
      cases hfd
    · rw [Function.update_of_ne heq] at hfd
      exact heq (hrecords.numbers fd' fd n hfd hopen)

theorem FailedClosed.next (h : FailedClosed s)
    (hinv : ∃ rooms waiting, SendInv s.lobby rooms waiting) {l : SendingStep}
    (hwaits : ToWaiting s l) (hst : sendingStep s l = some t) : FailedClosed t := by
  obtain ⟨rooms, waiting, hinv⟩ := hinv
  cases sendingStep_cases hst with
  | lobby hlobby =>
    obtain ⟨rooms', waiting', hmove, -⟩ := hinv.toLobbyHolding.next hlobby
    exact h.move hmove rfl
  | sent => exact h
  | @failed p _ server _ _ _ =>
    obtain ⟨client, -, hfailed, -, hout⟩ := hinv.send_false hst
    have hwaiting : p ∈ waiting := by
      rwa [ToWaiting, hinv.holding.waiting_eq,
        List.mem_map_of_injective (Option.some_injective _)] at hwaits
    change FailedSend _ _ _ _ _ (.ok server) at hout
    cases hout with
    | released hsplit hinv' hclosed hfds hclientAt haccepted =>
      exact h.release hinv.records hfailed hfds haccepted
    | unknown hplaced => exact absurd hwaiting hplaced

theorem SendingState.start : ∃ rooms waiting, SendInv sendingStart.lobby rooms waiting :=
  ⟨[], [], .start, .new⟩

end Sending

end CPong.Matchmaking
