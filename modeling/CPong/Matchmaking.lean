import CPong.TsQueue

/-!
# Clients and rooms

What `server.c` and `matchmaking.c` do with the queue of clients: a connection puts a client
at its tail, the matcher takes clients from its head and puts them into rooms, and a
disconnection looks for a client in it.
-/

namespace CPong.Matchmaking

set_option autoImplicit false

open Lib.Pointers
open Lib.Chain

def roomSize : Nat := 2

/-- `client_t`; the server is one. -/
structure Client where
  fd : Int
  id : Int
deriving DecidableEq, Repr

structure Room where
  id : Int
  clients : List (Option Ptr)
  isDisbanded : Bool
deriving DecidableEq, Repr

/-- The two queues, the memory of what they point to, and the descriptors: `fds` says which
connection an open one belongs to and `closed` lists the calls of `close`. -/
structure MmServer where
  clients : TsQueue
  clientAt : Heap Client
  rooms : TsQueue
  roomAt : Heap Room
  fds : Int → Option Nat
  closed : List Int
  accepted : Nat

def mmServerNew : MmServer :=
  ⟨tsQueueNew, fun _ => none, tsQueueNew, fun _ => none, fun _ => none, [], 0⟩

/-- The `for` loop of `__print_queue`. The fuel is the number of nodes that the queue counts. -/
def printNodes (q : TsQueue) (clientAt : Heap Client) : Nat → Option Ptr → Call (List Int)
  | _, none => .ok []
  | 0, some _ => .error .endless
  | n + 1, some p => do
    let node ← deref q.nodes (some p)
    let client ← deref clientAt node.data
    let ids ← printNodes q clientAt n node.next
    return client.id :: ids

def printQueue (q : TsQueue) (clientAt : Heap Client) : Call (List Int) :=
  printNodes q clientAt q.size q.head

/-- The part of `server_worker` from a successful `accept` to `ts_queue_enqueue`, with the
answers of the kernel and of the two calls of `malloc`. -/
def acceptClient (connfd : Int) (client node : Option Ptr) (s : MmServer) : Call MmServer :=
  if (s.fds connfd).isSome then .error .noAnswer
  else do
    match ← malloc s.clientAt client with
    | none => .error .segfault
    | some p =>
      let clients ← tsQueueEnqueue s.clients (some p) node
      return { s with
        clients := clients
        clientAt := Function.update s.clientAt p (some ⟨connfd, connfd⟩)
        fds := Function.update s.fds connfd (some s.accepted)
        accepted := s.accepted + 1 }

/-- The rest of the trip: the queue is printed and the client copied for its thread. -/
def announceClient (client : Ptr) (s : MmServer) : Call Client := do
  let q ← s.clients.lock
  let _ ← printQueue q s.clientAt
  deref s.clientAt (some client)

/-- The answers of the two calls of `malloc` for one room. -/
structure RoomAlloc where
  room : Option Ptr
  node : Option Ptr
deriving DecidableEq, Repr

/-- `room->clients[i] = clients_q->head->data; __ts_queue_dequeue_nolock(clients_q);` -/
def fillRoom : Nat → TsQueue → Call (List (Option Ptr) × TsQueue)
  | 0, q => .ok ([], q)
  | n + 1, q => do
    let head ← deref q.nodes q.head
    let q ← tsQueueDequeueNolock q
    let (rest, q) ← fillRoom n q
    return (head.data :: rest, q)

/-- One trip of the inner loop of `matchmaking_worker`; `none` is its `return NULL`. -/
def createRoom (alloc : RoomAlloc) (s : MmServer) : Call (Option MmServer) := do
  match ← malloc s.roomAt alloc.room with
  | none => return none
  | some room =>
    let (members, clients) ← fillRoom roomSize s.clients
    let first ← deref s.clientAt members.head?.join
    let _ ← printQueue clients s.clientAt
    let rooms ← tsQueueEnqueueNolock s.rooms (some room) alloc.node
    return some { s with
      clients := clients
      rooms := rooms
      roomAt := Function.update s.roomAt room (some ⟨first.id, members, false⟩) }

/-- `while (clients_q->size >= ROOM_SIZE)`; the answer is whether the loop came to its end. -/
def createRooms : List RoomAlloc → MmServer → Call (Bool × MmServer)
  | [], s => if roomSize ≤ s.clients.size then .error .noAnswer else .ok (true, s)
  | alloc :: allocs, s =>
    if roomSize ≤ s.clients.size then do
      match ← createRoom alloc s with
      | none => return (false, s)
      | some s => createRooms allocs s
    else .ok (true, s)

/-- How the matcher leaves the section that starts with its lock or its wakeup. -/
inductive SectionExit where
  | waits
  | unlocks
  | returns
deriving DecidableEq, Repr

/-- `matchmaking_worker` from where it gets the mutex to where it gives it up: it waits for
the condition, it unlocks, or it returns. -/
def matchmakingRound (allocs : List RoomAlloc) (s : MmServer) : Call (SectionExit × MmServer) := do
  let clients ← s.clients.lock
  let s := { s with clients := clients }
  if s.clients.size < roomSize then
    return (.waits, { s with clients := s.clients.unlock })
  else
    let (done, s) ← createRooms allocs s
    if done then return (.unlocks, { s with clients := s.clients.unlock })
    else return (.returns, s)

/-- The search of `server_handle_disconnection`. -/
def findNode (q : TsQueue) (clientAt : Heap Client) (id : Int) :
    Nat → Option Ptr → Call (Option Ptr)
  | _, none => .ok none
  | 0, some _ => .error .endless
  | n + 1, some p => do
    let node ← deref q.nodes (some p)
    let client ← deref clientAt node.data
    if client.id = id then return some p
    else findNode q clientAt id n node.next

def MmServer.close (s : MmServer) (fd : Int) : MmServer :=
  { s with fds := Function.update s.fds fd none, closed := s.closed ++ [fd] }

def serverHandleDisconnection (client : Client) (s : MmServer) : Call MmServer := do
  let clients ← s.clients.lock
  let s := { s with clients := clients }
  match ← findNode s.clients s.clientAt client.id s.clients.size s.clients.head with
  | none => return { s with clients := s.clients.unlock }
  | some p =>
    let s := s.close client.fd
    let node ← deref s.clients.nodes (some p)
    let clientAt ← free s.clientAt node.data
    let clients ← tsQueueRemoveNolock s.clients node.prev node.next
    return { s with clients := clients.unlock, clientAt := clientAt }

/-- The nodes of the queue point to the given objects, from head to tail. -/
def Queued (q : TsQueue) (items : List Ptr) : Prop :=
  ∃ cells, Holds q cells ∧ cells.map Prod.snd = items.map some

section Queued
variable {q q' : TsQueue} {waiting xs ys : List Ptr} {x : Ptr} {clientAt : Heap Client}

theorem Queued.new : Queued tsQueueNew [] := ⟨[], .new, rfl⟩

theorem Queued.withMutex (h : Queued q waiting) (mutex : Bool) :
    Queued { q with mutex := mutex } waiting := by
  obtain ⟨cells, hcells, hdata⟩ := h
  exact ⟨cells, hcells.withMutex mutex, hdata⟩

theorem Queued.size (h : Queued q waiting) : q.size = waiting.length := by
  obtain ⟨cells, hcells, hdata⟩ := h
  rw [hcells.size, ← List.length_map (f := Prod.snd), hdata, List.length_map]

theorem Queued.items (h : Queued q waiting) : q.items = some (waiting.map some) := by
  obtain ⟨cells, hcells, hdata⟩ := h
  rw [hcells.items, hdata]

/-- The head of the queue points to the first object, and goes with it. -/
theorem Queued.dequeue (h : Queued q (x :: xs)) :
    ∃ node q', deref q.nodes q.head = .ok node ∧ node.data = some x ∧
      tsQueueDequeueNolock q = .ok q' ∧ Queued q' xs ∧ q'.mutex = q.mutex := by
  obtain ⟨cells, hcells, hdata⟩ := h
  cases cells with
  | nil => simp at hdata
  | cons c cells =>
    simp only [List.map_cons, List.cons.injEq] at hdata
    obtain ⟨q', hdequeue, hholds, hmutex⟩ := tsQueueDequeueNolock_holds hcells
    refine ⟨⟨c.2, none, firstOr none cells⟩, q', ?_, hdata.1, hdequeue, ⟨cells, hholds, hdata.2⟩, hmutex⟩
    rw [hcells.head, firstOr, deref_eq hcells.linked.1]

/-- Every answer of `malloc` for the node: none of them leads to a lock. -/
theorem Queued.enqueue (h : Queued q waiting) (x : Ptr) (answer : Option Ptr) :
    (∃ q', tsQueueEnqueueNolock q (some x) answer = .ok q' ∧ answer.isSome ∧
        Queued q' (waiting ++ [x]) ∧ q'.mutex = q.mutex) ∨
      (answer = none ∧ tsQueueEnqueueNolock q (some x) answer = .error .segfault) ∨
      tsQueueEnqueueNolock q (some x) answer = .error .noAnswer := by
  obtain ⟨cells, hcells, hdata⟩ := h
  cases answer with
  | none => exact Or.inr (Or.inl ⟨rfl, rfl⟩)
  | some p =>
    cases hp : q.nodes p with
    | none =>
      obtain ⟨q', henqueue, hholds, hmutex⟩ := tsQueueEnqueueNolock_holds hcells hp (some x)
      exact Or.inl ⟨q', henqueue, rfl, ⟨_, hholds, by simp [hdata]⟩, hmutex⟩
    | some c =>
      refine Or.inr (Or.inr ?_)
      simp [tsQueueEnqueueNolock, tsQueueNodeNew, malloc, hp]

theorem fillRoom_queued (h : Queued q (xs ++ ys)) :
    ∃ q', fillRoom xs.length q = .ok (xs.map some, q') ∧ Queued q' ys ∧ q'.mutex = q.mutex := by
  induction xs generalizing q with
  | nil => exact ⟨q, rfl, h, rfl⟩
  | cons x xs ih =>
    obtain ⟨node, q₁, hhead, hdata, hdequeue, hq₁, hmutex₁⟩ := Queued.dequeue h
    obtain ⟨q₂, hfill, hq₂, hmutex₂⟩ := ih hq₁
    refine ⟨q₂, ?_, hq₂, hmutex₂.trans hmutex₁⟩
    rw [List.length_cons, fillRoom, hhead, ok_bind, hdequeue, ok_bind, hfill, ok_bind, hdata]
    rfl

/-- Printing reads live clients only. -/
theorem printQueue_queued (h : Queued q waiting) (hlive : ∀ p ∈ waiting, (clientAt p).isSome) :
    ∃ ids, printQueue q clientAt = .ok ids := by
  obtain ⟨cells, hcells, hdata⟩ := h
  suffices hnodes : ∀ before n, Linked q.nodes before cells none → cells.length ≤ n →
      ∃ ids, printNodes q clientAt n (firstOr none cells) = .ok ids by
    obtain ⟨ids, hids⟩ := hnodes none q.size hcells.linked (Nat.le_of_eq hcells.size.symm)
    exact ⟨ids, by rw [printQueue, hcells.head, hids]⟩
  clear hcells
  induction cells generalizing waiting with
  | nil => exact fun _ n _ _ => ⟨[], by cases n <;> rfl⟩
  | cons c cells ih =>
    intro before n hlinked hn
    cases waiting with
    | nil => simp at hdata
    | cons x waiting =>
      simp only [List.map_cons, List.cons.injEq] at hdata
      obtain ⟨n, rfl⟩ : ∃ m, n = m + 1 := ⟨n - 1, by simp at hn; omega⟩
      obtain ⟨client, hclient⟩ := Option.isSome_iff_exists.mp (hlive x List.mem_cons_self)
      obtain ⟨ids, hids⟩ := ih (fun p hp => hlive p (List.mem_cons_of_mem x hp)) hdata.2 _ n
        hlinked.2 (Nat.le_of_succ_le_succ hn)
      refine ⟨client.id :: ids, ?_⟩
      rw [firstOr, printNodes, deref_eq hlinked.1, ok_bind, hdata.1, deref_eq hclient, ok_bind,
        hids]
      rfl

end Queued

/-- The rooms made so far with the clients in each, and the clients that wait. -/
structure Holding (s : MmServer) (rooms : List (Ptr × List Ptr)) (waiting : List Ptr) : Prop where
  queue : Queued s.clients waiting
  roomQueue : Queued s.rooms (rooms.map Prod.fst)
  placed : ∀ x ∈ rooms, x.2.length = roomSize ∧
    ∃ room, s.roomAt x.1 = some room ∧ room.clients = x.2.map some
  live : ∀ p ∈ rooms.flatMap Prod.snd ++ waiting, (s.clientAt p).isSome

/-- The matcher moves clients and leaves them as they are. -/
structure SameClients (s t : MmServer) : Prop where
  clientAt : t.clientAt = s.clientAt
  fds : t.fds = s.fds
  closed : t.closed = s.closed
  accepted : t.accepted = s.accepted
  mutex : t.clients.mutex = s.clients.mutex
  roomsMutex : t.rooms.mutex = s.rooms.mutex

/-- The allocation of a room fails, after those before it and their nodes have succeeded. -/
def roomMallocFails : List RoomAlloc → Nat → Bool
  | [], _ => false
  | alloc :: allocs, waiting =>
    roomSize ≤ waiting &&
      (alloc.room.isNone || alloc.node.isSome && roomMallocFails allocs (waiting - roomSize))

section Rooms
variable {s t : MmServer} {rooms : List (Ptr × List Ptr)} {waiting xs ys : List Ptr}
  {alloc : RoomAlloc} {allocs : List RoomAlloc}

theorem SameClients.refl (s : MmServer) : SameClients s s := ⟨rfl, rfl, rfl, rfl, rfl, rfl⟩

theorem SameClients.trans {u : MmServer} (h : SameClients s t) (h' : SameClients t u) :
    SameClients s u :=
  ⟨h'.clientAt.trans h.clientAt, h'.fds.trans h.fds, h'.closed.trans h.closed,
    h'.accepted.trans h.accepted, h'.mutex.trans h.mutex, h'.roomsMutex.trans h.roomsMutex⟩

theorem Holding.withMutex (h : Holding s rooms waiting) (mutex : Bool) :
    Holding { s with clients := { s.clients with mutex := mutex } } rooms waiting :=
  ⟨h.queue.withMutex mutex, h.roomQueue, h.placed, h.live⟩

/-- What `createRoom` comes to, by the answers of its two allocations. -/
inductive RoomOutcome (alloc : RoomAlloc) (s : MmServer) (rooms : List (Ptr × List Ptr))
    (xs ys : List Ptr) : Call (Option MmServer) → Prop where
  | created {room : Ptr} {t : MmServer} (hroom : alloc.room = some room)
      (hnode : alloc.node.isSome) (hholding : Holding t (rooms ++ [(room, xs)]) ys)
      (hsame : SameClients s t) : RoomOutcome alloc s rooms xs ys (.ok (some t))
  | refused (hroom : alloc.room = none) : RoomOutcome alloc s rooms xs ys (.ok none)
  | crashed (hroom : alloc.room.isSome) (hnode : alloc.node = none) :
      RoomOutcome alloc s rooms xs ys (.error .segfault)
  | unanswered : RoomOutcome alloc s rooms xs ys (.error .noAnswer)

/-- The next clients of the queue, as many as a room takes, get a room of their own. -/
theorem createRoom_outcome (h : Holding s rooms (xs ++ ys)) (hlen : xs.length = roomSize)
    (alloc : RoomAlloc) : RoomOutcome alloc s rooms xs ys (createRoom alloc s) := by
  unfold createRoom
  cases hroom : alloc.room with
  | none => exact .refused hroom
  | some room =>
    cases hfree : s.roomAt room with
    | some other =>
      have hmalloc : malloc s.roomAt (some room) = .error .noAnswer := by simp [malloc, hfree]
      rw [hmalloc]
      exact .unanswered
    | none =>
      obtain ⟨clients, hfill, hclients, hmutex⟩ := fillRoom_queued h.queue
      obtain ⟨x, rest, rfl⟩ : ∃ x rest, xs = x :: rest := by
        cases xs with
        | nil => cases hlen
        | cons x rest => exact ⟨x, rest, rfl⟩
      obtain ⟨first, hfirst⟩ := Option.isSome_iff_exists.mp (h.live x (by simp))
      have hwaiting : ∀ p ∈ ys, (s.clientAt p).isSome := fun p hp => h.live p (by simp [hp])
      obtain ⟨ids, hids⟩ := printQueue_queued hclients hwaiting
      rw [hlen] at hfill
      rw [malloc_eq hfree]
      simp only [ok_bind, hfill, List.map_cons, List.head?_cons, Option.join_some,
        deref_eq hfirst, hids]
      rcases h.roomQueue.enqueue room alloc.node with
        ⟨q, henqueue, hnode, hq, hqmutex⟩ | ⟨hnode, henqueue⟩ | henqueue
      · rw [henqueue]
        refine .created hroom hnode ⟨hclients, by simpa using hq, ?_, ?_⟩
          ⟨rfl, rfl, rfl, rfl, hmutex, hqmutex⟩
        · intro y hy
          rcases List.mem_append.mp hy with hy | hy
          · obtain ⟨hsize, made, hmade, hmembers⟩ := h.placed y hy
            have hne : y.1 ≠ room := by
              intro heq
              rw [heq, hfree] at hmade
              cases hmade
            exact ⟨hsize, made, (Function.update_of_ne hne _ _).trans hmade, hmembers⟩
          · obtain rfl := List.mem_singleton.mp hy
            exact ⟨hlen, _, Function.update_self room _ _, rfl⟩
        · intro p hp
          apply h.live
          simpa [List.flatMap_append, or_assoc] using hp
      · rw [henqueue]
        exact .crashed (by rw [hroom]; rfl) hnode
      · rw [henqueue]
        exact .unanswered

/-- What the inner loop comes to. -/
inductive RoomsOutcome (allocs : List RoomAlloc) (s : MmServer) (rooms : List (Ptr × List Ptr))
    (waiting : List Ptr) : Call (Bool × MmServer) → Prop where
  | left {done : Bool} {t : MmServer} (made : List (Ptr × List Ptr)) {rest : List Ptr}
      (hdone : done = true → rest.length < roomSize)
      (hfails : roomMallocFails allocs waiting.length = !done)
      (hsplit : waiting = made.flatMap Prod.snd ++ rest)
      (hholding : Holding t (rooms ++ made) rest) (hsame : SameClients s t) :
      RoomsOutcome allocs s rooms waiting (.ok (done, t))
  | crashed (hfails : roomMallocFails allocs waiting.length = false) :
      RoomsOutcome allocs s rooms waiting (.error .segfault)
  | unanswered : RoomsOutcome allocs s rooms waiting (.error .noAnswer)

/-- The loop stops with nothing made. -/
theorem RoomsOutcome.stopped (h : Holding s rooms waiting) {done : Bool}
    (hdone : done = true → waiting.length < roomSize)
    (hfails : roomMallocFails allocs waiting.length = !done) :
    RoomsOutcome allocs s rooms waiting (.ok (done, s)) := by
  refine .left [] hdone hfails rfl ?_ (.refl s)
  rwa [List.append_nil]

/-- A room is made, and then what the rest of the loop makes. -/
theorem RoomsOutcome.cons {room : Ptr} {call : Call (Bool × MmServer)} (hsame : SameClients s t)
    (hfails : roomMallocFails (alloc :: allocs) (xs ++ ys).length =
      roomMallocFails allocs ys.length)
    (h : RoomsOutcome allocs t (rooms ++ [(room, xs)]) ys call) :
    RoomsOutcome (alloc :: allocs) s rooms (xs ++ ys) call := by
  cases h with
  | @left done u made rest hdone hfails' hsplit hholding hsame' =>
    refine .left ((room, xs) :: made) hdone (hfails.trans hfails') ?_ ?_ (hsame.trans hsame')
    · rw [List.flatMap_cons, List.append_assoc, ← hsplit]
    · rwa [List.append_assoc, List.singleton_append] at hholding
  | crashed hfails' => exact .crashed (hfails.trans hfails')
  | unanswered => exact .unanswered

theorem createRooms_outcome (h : Holding s rooms waiting) (allocs : List RoomAlloc) :
    RoomsOutcome allocs s rooms waiting (createRooms allocs s) := by
  have hsize := h.queue.size
  induction allocs generalizing s rooms waiting with
  | nil =>
    unfold createRooms
    split
    · exact .unanswered
    · rename_i hfew
      exact .stopped h (fun _ => by omega) rfl
  | cons alloc allocs ih =>
    unfold createRooms
    split
    · rename_i henough
      have hlen : (waiting.take roomSize).length = roomSize := by
        rw [List.length_take]
        omega
      have hle : roomSize ≤ waiting.length := by omega
      have hcut := List.take_append_drop roomSize waiting
      rw [← hcut] at h
      have hone := createRoom_outcome h hlen alloc
      cases hcreate : createRoom alloc s with
      | error e =>
        rw [hcreate] at hone
        cases hone with
        | crashed hroom hnode =>
          refine .crashed ?_
          obtain ⟨room, hroom⟩ := Option.isSome_iff_exists.mp hroom
          simp [roomMallocFails, hroom, hnode]
        | unanswered => exact .unanswered
      | ok made =>
        rw [hcreate] at hone
        cases hone with
        | refused hroom =>
          rw [hcut] at h
          refine .stopped h (fun hdone => nomatch hdone) ?_
          simp [roomMallocFails, hroom, hle]
        | @created room t hroom hnode hholding hsame =>
          have hfails : roomMallocFails (alloc :: allocs) waiting.length =
              roomMallocFails allocs (waiting.drop roomSize).length := by
            simp [roomMallocFails, hroom, hnode, hle]
          rw [← hcut] at hfails ⊢
          rw [List.drop_left' hlen] at hfails
          exact .cons hsame hfails (ih hholding hholding.queue.size)
    · rename_i hfew
      refine .stopped h (fun _ => by omega) ?_
      simp only [roomMallocFails, Bool.not_true, Bool.and_eq_false_imp, decide_eq_true_eq]
      omega

/-- What a section of the matcher comes to when it finds the mutex free. -/
inductive RoundOutcome (allocs : List RoomAlloc) (s : MmServer) (rooms : List (Ptr × List Ptr))
    (waiting : List Ptr) : Call (SectionExit × MmServer) → Prop where
  | waits (hfew : waiting.length < roomSize) : RoundOutcome allocs s rooms waiting (.ok (.waits, s))
  | unlocks {t : MmServer} {made : List (Ptr × List Ptr)} {rest : List Ptr}
      (hfew : rest.length < roomSize) (hfails : roomMallocFails allocs waiting.length = false)
      (hsplit : waiting = made.flatMap Prod.snd ++ rest)
      (hholding : Holding t (rooms ++ made) rest) (hsame : SameClients s t) :
      RoundOutcome allocs s rooms waiting (.ok (.unlocks, t))
  | returns {t : MmServer} {made : List (Ptr × List Ptr)} {rest : List Ptr}
      (hfails : roomMallocFails allocs waiting.length = true)
      (hsplit : waiting = made.flatMap Prod.snd ++ rest)
      (hholding : Holding t (rooms ++ made) rest)
      (hsame : SameClients { s with clients := { s.clients with mutex := true } } t) :
      RoundOutcome allocs s rooms waiting (.ok (.returns, t))
  | crashed (hfails : roomMallocFails allocs waiting.length = false) :
      RoundOutcome allocs s rooms waiting (.error .segfault)
  | unanswered : RoundOutcome allocs s rooms waiting (.error .noAnswer)

theorem MmServer.unlocked (hfree : s.clients.mutex = false) :
    { s with clients := { s.clients with mutex := false } } = s := by
  rw [← hfree]

theorem matchmakingRound_outcome (h : Holding s rooms waiting) (hfree : s.clients.mutex = false)
    (allocs : List RoomAlloc) :
    RoundOutcome allocs s rooms waiting (matchmakingRound allocs s) := by
  have hlocked := h.withMutex true
  have hsize := h.queue.size
  unfold matchmakingRound
  rw [CPong.TsQueue.lock_free hfree, ok_bind]
  dsimp only
  split
  · rename_i hfew
    change RoundOutcome _ _ _ _ (.ok (SectionExit.waits,
      { s with clients := { s.clients with mutex := false } }))
    rw [MmServer.unlocked hfree]
    exact .waits (by omega)
  · have hrooms := createRooms_outcome hlocked allocs
    generalize createRooms allocs _ = call at hrooms
    cases hrooms with
    | @left done t made rest hdone hfails hsplit hholding hsame =>
      cases done with
      | true =>
        refine .unlocks (hdone rfl) hfails hsplit (hholding.withMutex false) ?_
        exact ⟨hsame.clientAt, hsame.fds, hsame.closed, hsame.accepted, hfree.symm, hsame.roomsMutex⟩
      | false => exact .returns hfails hsplit hholding hsame
    | crashed hfails => exact .crashed hfails
    | unanswered => exact .unanswered

/-- What the part of `server_worker` comes to that puts a client into the queue. -/
inductive AcceptOutcome (connfd : Int) (client : Option Ptr) (s : MmServer)
    (rooms : List (Ptr × List Ptr)) (waiting : List Ptr) : Call MmServer → Prop where
  | accepted {p : Ptr} {t : MmServer} (hclient : client = some p) (hnew : s.clientAt p = none)
      (hfd : s.fds connfd = none) (hholding : Holding t rooms (waiting ++ [p]))
      (hclientAt : t.clientAt = Function.update s.clientAt p (some ⟨connfd, connfd⟩))
      (hfds : t.fds = Function.update s.fds connfd (some s.accepted)) (hclosed : t.closed = s.closed)
      (haccepted : t.accepted = s.accepted + 1) (hmutex : t.clients.mutex = false)
      (hroomsMutex : t.rooms.mutex = s.rooms.mutex) :
      AcceptOutcome connfd client s rooms waiting (.ok t)
  | crashed : AcceptOutcome connfd client s rooms waiting (.error .segfault)
  | unanswered : AcceptOutcome connfd client s rooms waiting (.error .noAnswer)

theorem acceptClient_outcome (h : Holding s rooms waiting) (hfree : s.clients.mutex = false)
    (connfd : Int) (client node : Option Ptr) :
    AcceptOutcome connfd client s rooms waiting (acceptClient connfd client node s) := by
  unfold acceptClient
  split
  · exact .unanswered
  · rename_i hfd
    rw [Option.not_isSome_iff_eq_none] at hfd
    cases client with
    | none => exact .crashed
    | some p =>
      cases hnew : s.clientAt p with
      | some other =>
        have hmalloc : malloc s.clientAt (some p) = .error .noAnswer := by simp [malloc, hnew]
        rw [hmalloc]
        exact .unanswered
      | none =>
        rw [malloc_eq hnew]
        simp only [ok_bind, tsQueueEnqueue, CPong.TsQueue.lock_free hfree]
        rcases (h.queue.withMutex true).enqueue p node with
          ⟨q, henqueue, -, hq, -⟩ | ⟨-, henqueue⟩ | henqueue
        · rw [henqueue]
          refine .accepted rfl hnew hfd ⟨hq.withMutex false, h.roomQueue, h.placed, ?_⟩
            rfl rfl rfl rfl rfl rfl
          intro a ha
          rw [← List.append_assoc, List.mem_append] at ha
          change (Function.update s.clientAt p (some (Client.mk connfd connfd)) a).isSome
          by_cases hap : a = p
          · rw [hap, Function.update_self]
            rfl
          · rw [Function.update_of_ne hap]
            exact h.live a (ha.resolve_right (mt List.mem_singleton.mp hap))
        · rw [henqueue]
          exact .crashed
        · rw [henqueue]
          exact .unanswered

/-- A client that is in the queue or in a room can be announced. -/
theorem announceClient_holding (h : Holding s rooms waiting) (hfree : s.clients.mutex = false)
    {p : Ptr} {client : Client} (hp : s.clientAt p = some client) :
    announceClient p s = .ok client := by
  have hwaiting : ∀ a ∈ waiting, (s.clientAt a).isSome := fun a ha => h.live a (by simp [ha])
  obtain ⟨ids, hids⟩ := printQueue_queued (h.queue.withMutex true) hwaiting
  rw [announceClient, CPong.TsQueue.lock_free hfree, ok_bind, hids, ok_bind, deref_eq hp]

/-- The search meets live clients only and stops at the first with the id. -/
theorem findNode_linked {q : TsQueue} {clientAt : Heap Client} {cells : List (Ptr × Option Ptr)}
    {before : Option Ptr} {n : Nat} (hlinked : Linked q.nodes before cells none)
    (hdata : cells.map Prod.snd = waiting.map some) (hlive : ∀ p ∈ waiting, (clientAt p).isSome)
    (hn : cells.length ≤ n) (id : Int) :
    (findNode q clientAt id n (firstOr none cells) = .ok none ∧
        ∀ p ∈ waiting, ∀ client, clientAt p = some client → client.id ≠ id) ∨
      ∃ l c r xs x ys client, cells = l ++ c :: r ∧ waiting = xs ++ x :: ys ∧
        (l ++ r).map Prod.snd = (xs ++ ys).map some ∧ c.2 = some x ∧
        clientAt x = some client ∧ client.id = id ∧
        findNode q clientAt id n (firstOr none cells) = .ok (some c.1) := by
  induction cells generalizing waiting before n with
  | nil =>
    left
    obtain rfl : waiting = [] := by simpa using hdata.symm
    exact ⟨by cases n <;> rfl, fun p hp => (nomatch hp)⟩
  | cons c cells ih =>
    cases waiting with
    | nil => simp at hdata
    | cons x waiting =>
      simp only [List.map_cons, List.cons.injEq] at hdata
      obtain ⟨n, rfl⟩ : ∃ m, n = m + 1 := ⟨n - 1, by simp at hn; omega⟩
      obtain ⟨client, hclient⟩ := Option.isSome_iff_exists.mp (hlive x List.mem_cons_self)
      have hfind : findNode q clientAt id (n + 1) (firstOr none (c :: cells)) =
          if client.id = id then .ok (some c.1)
          else findNode q clientAt id n (firstOr none cells) := by
        rw [firstOr, findNode, deref_eq hlinked.1, ok_bind, hdata.1, deref_eq hclient, ok_bind]
        rfl
      rw [hfind]
      by_cases hid : client.id = id
      · right
        exact ⟨[], c, cells, [], x, waiting, client, rfl, rfl, hdata.2, hdata.1, hclient, hid,
          if_pos hid⟩
      · rw [if_neg hid]
        rcases ih hlinked.2 hdata.2 (fun p hp => hlive p (List.mem_cons_of_mem x hp))
          (Nat.le_of_succ_le_succ hn) with
          ⟨hnone, hothers⟩ | ⟨l, d, r, xs, y, ys, found, rfl, rfl, hrest, hd, hy, hyid, hsome⟩
        · left
          refine ⟨hnone, ?_⟩
          intro p hp other hother
          rcases List.mem_cons.mp hp with rfl | hp
          · rw [hclient, Option.some.injEq] at hother
            rwa [← hother]
          · exact hothers p hp other hother
        · right
          refine ⟨c :: l, d, r, x :: xs, y, ys, found, rfl, rfl, ?_, hd, hy, hyid, hsome⟩
          simp only [List.cons_append, List.map_cons, hdata.1, hrest]

/-- What a disconnection comes to when it finds the mutex free. -/
inductive DisconnectOutcome (client : Client) (s : MmServer) (waiting : List Ptr) :
    Call MmServer → Prop where
  | unknown (hothers : ∀ p ∈ waiting, ∀ c, s.clientAt p = some c → c.id ≠ client.id) :
      DisconnectOutcome client s waiting (.ok s)
  | removed {xs ys : List Ptr} {x : Ptr} {c : Client} {q : TsQueue}
      (hsplit : waiting = xs ++ x :: ys) (hx : s.clientAt x = some c) (hid : c.id = client.id)
      (hqueue : Queued q (xs ++ ys)) (hmutex : q.mutex = false) :
      DisconnectOutcome client s waiting
        (.ok { s.close client.fd with
          clients := q, clientAt := Function.update s.clientAt x none })

theorem serverHandleDisconnection_outcome (h : Holding s rooms waiting)
    (hfree : s.clients.mutex = false) (client : Client) :
    DisconnectOutcome client s waiting (serverHandleDisconnection client s) := by
  obtain ⟨cells, hcells, hdata⟩ := h.queue
  have hlive : ∀ p ∈ waiting, (s.clientAt p).isSome := fun p hp => h.live p (by simp [hp])
  unfold serverHandleDisconnection
  rw [CPong.TsQueue.lock_free hfree, ok_bind]
  rcases findNode_linked (q := { s.clients with mutex := true }) hcells.linked hdata hlive
    (Nat.le_of_eq hcells.size.symm) client.id with
    ⟨hnone, hothers⟩ | ⟨l, c, r, xs, x, ys, found, rfl, hsplit, hrest, hc, hx, hid, hsome⟩
  · rw [← hcells.head] at hnone
    simp only [hnone, ok_bind]
    change DisconnectOutcome _ _ _
      (.ok { s with clients := { s.clients with mutex := false } })
    rw [MmServer.unlocked hfree]
    exact .unknown hothers
  · rw [← hcells.head] at hsome
    obtain ⟨hl, hlink, hr⟩ := linked_append.mp hcells.linked
    obtain ⟨q, hremove, hholds, -⟩ := tsQueueRemoveNolock_holds (hcells.withMutex true)
    have hnode : s.clients.nodes c.1 = some ⟨c.2, lastOr none l, firstOr none r⟩ := hlink
    simp only [hsome, ok_bind, MmServer.close, deref_eq hnode, hc, free_eq hx, hremove]
    exact .removed hsplit hx hid ⟨_, hholds.withMutex false, hrest⟩ rfl

end Rooms

end CPong.Matchmaking
